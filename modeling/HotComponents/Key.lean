import HotComponents.FilePath

/-!
# Render targets and record keys

A component is compiled once for each render target, so a record is filed under a file and a
target. Keys are compared by the components of their files; the text of the file stays with the key
for messages and for reading the file again.

* `Key.same_iff`: sameness of keys is equality of their slots;
* `Key.slot_eq_of_orderKey_eq`: the order of keys separates exactly the keys that differ.
-/

namespace HotComponents

/-- Where a component's code will run. -/
inductive Target where
  /-- In the browser. -/
  | dom
  /-- On the server, to render a page. -/
  | ssr
deriving DecidableEq, Repr, Inhabited

namespace Target

/-- The target is the server. -/
def isSsr : Target → Bool
  | dom => false
  | ssr => true

/-- The target of a server flag. -/
def ofSsr : Bool → Target
  | false => dom
  | true => ssr

/-- The server flag as text. -/
def text : Target → String
  | dom => "false"
  | ssr => "true"

/-- The number that puts browser records before server records. -/
def rank : Target → Nat
  | dom => 0
  | ssr => 1

end Target

/-- What a record is filed under. -/
structure Key where
  /-- The component's source file, as it was first written. -/
  file : FilePath
  /-- The render target. -/
  target : Target
deriving DecidableEq, Repr, Inhabited

/-- What counts of a key when keys are compared. -/
abbrev Slot := List FilePath.Component × Target

namespace Key

/-- The slot that a key names. -/
def slot (k : Key) : Slot := (k.file.components, k.target)

/-- The keys name one slot. -/
def same (k l : Key) : Bool := k.slot == l.slot

theorem same_iff {k l : Key} : k.same l ↔ k.slot = l.slot := by
  simp [same]

/-- The key by which record keys are ordered: by file, then browser before server. -/
def orderKey (k : Key) : List (List Nat) × Nat := (k.file.orderKey, k.target.rank)

theorem slot_eq_of_orderKey_eq {k l : Key} (h : k.orderKey = l.orderKey) : k.slot = l.slot := by
  simp only [orderKey, Prod.mk.injEq] at h
  have target : k.target = l.target := by
    cases hk : k.target <;> cases hl : l.target <;> simp_all [Target.rank]
  simp [slot, FilePath.orderKey_injective h.1, target]

/-- The key comes before the other one or names the same slot. -/
def notAfter (k l : Key) : Bool :=
  k.file.orderKey < l.file.orderKey ||
    (k.file.orderKey == l.file.orderKey && k.target.rank ≤ l.target.rank)

end Key

end HotComponents
