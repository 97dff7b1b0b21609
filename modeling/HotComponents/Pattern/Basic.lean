import HotComponents.Pattern.Machine
import HotComponents.Pattern.Meaning
import HotComponents.Pattern.Reader
import HotComponents.Pattern.Search

/-!
# Patterns

A pattern is a regular expression that is searched for anywhere in a text. Making one can fail: on a
fault in its text, on a condition on words that needs Unicode tables, and on its size.

* `Pattern.source_ofString`: a pattern keeps the text it was made from.
-/

namespace HotComponents

/-- A pattern that was read and understood. -/
structure Pattern where
  /-- The text it was made from. -/
  source : String
  /-- What it means. -/
  expr : Pattern.Expr
deriving Repr

namespace Pattern

/-- Why a text makes no pattern. -/
inductive Refusal where
  /-- Its text is at fault. -/
  | fault (f : Fault)
  /-- It has a condition on words that needs Unicode tables. -/
  | unsupported
  /-- Its automaton would be too large. -/
  | tooBig
deriving DecidableEq, Repr

/-- The wording of a refusal of a text. -/
def Refusal.message (source : String) : Refusal → String
  | fault f => f.text source
  | unsupported => "error building NFA"
  | tooBig => "Compiled regex exceeds size limit of " ++ toString Weight.limit ++ " bytes."

/-- The automata of an expression can be made: the one that reads onward first, then what its
conditions need, then the one that reads backward. -/
def check (e : Expr) : Except Refusal Unit := do
  if e.isWordList then return
  if (e.weight? .onward).isNone then throw .tooBig
  if !e.isSupported then throw .unsupported
  if (e.weight? .backward).isNone then throw .tooBig

/-- The pattern that a text makes. -/
def ofString (source : String) : Except Refusal Pattern := do
  let meaning := do
    let tree ← Tree.parse source
    tree.meaning {}
  match meaning with
  | .error f => throw (.fault f)
  | .ok (expr, _) =>
    check expr
    return ⟨source, expr⟩

theorem source_ofString {source : String} {p : Pattern} (h : ofString source = .ok p) :
    p.source = source := by
  simp only [ofString] at h
  split at h
  · cases h
  · next expr _ _ =>
    cases hc : check expr with
    | error r => rw [hc] at h; cases h
    | ok u => rw [hc] at h; cases h; rfl

/-- The pattern occurs in the text. -/
def isMatch (p : Pattern) (text : String) : Bool := p.expr.isMatch text

end Pattern

end HotComponents
