import HotComponents.Component.Record

/-!
# What a new record changes

A new record of a component is compared with the one it replaces: nothing that is served changes,
only the stylesheet does, or the main module has to be loaded again, which loads the stylesheet
again too.

* `classify_eq_none_iff`, `classify_eq_style_iff`: when nothing, or only the stylesheet, changes.
-/

namespace HotComponents

/-- What a new record changes of what is served. -/
inductive Change where
  /-- Nothing. -/
  | none
  /-- The stylesheet alone. -/
  | style
  /-- The main module, or whether there is a stylesheet, which the main module imports. -/
  | reload
deriving DecidableEq, Repr

namespace Change

/-- The text of a change. -/
def text : Change → String
  | none => "unchanged"
  | style => "css"
  | reload => "reload"

/-- The text of a record's stylesheet. -/
def cssText (r : Record) : Option String := r.css.map Code.text

/-- What `next` changes that replaces `previous`. Source maps do not count. -/
def classify (previous next : Record) : Change :=
  if previous.js.text ≠ next.js.text ∨ previous.hasCss ≠ next.hasCss then reload
  else if cssText previous ≠ cssText next then style
  else none

/-- What changes when there may have been no record before. -/
def ofReplacement (previous : Option Record) (next : Record) : Change :=
  previous.elim reload (classify · next)

/-- The modules that a change makes stale, of a component with the given identifiers. -/
def affected (change : Change) (mainId styleId : String) : List String :=
  match change with
  | none => []
  | style => [styleId]
  | reload => [mainId]

theorem classify_eq_none_iff {previous next : Record} :
    classify previous next = none ↔
      previous.js.text = next.js.text ∧ cssText previous = cssText next := by
  unfold classify
  split
  · next h =>
    simp only [reduceCtorEq, false_iff, not_and]
    rintro hj hc
    rcases h with h | h
    · exact h hj
    · apply h
      cases hp : previous.css <;> cases hn : next.css <;> simp_all [Record.hasCss, cssText]
  · split <;> simp_all

theorem classify_eq_style_iff {previous next : Record} :
    classify previous next = style ↔
      previous.js.text = next.js.text ∧ previous.hasCss = next.hasCss ∧
        cssText previous ≠ cssText next := by
  unfold classify
  split
  · next h =>
    simp only [reduceCtorEq, false_iff, not_and]
    rintro hj hc
    rcases h with h | h
    · exact absurd hj h
    · exact absurd hc h
  · split <;> simp_all

end Change

end HotComponents
