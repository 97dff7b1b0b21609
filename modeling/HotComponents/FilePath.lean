import HotComponents.Text.Split

/-!
# File paths

A path is the text it was written as. Two paths name the same file when their *components* agree:
repeated and trailing slashes and inner `.` parts do not count, `..` is a component of its own, and
a leading `.` is kept apart from no `.` at all. Paths are ordered component by component.

* `FilePath.same_iff`: sameness is equality of components;
* `FilePath.orderKey_injective`: the order key determines the components;
* `FilePath.join_of_isAbsolute`: an absolute path replaces the directory it is joined to.
-/

namespace HotComponents

/-- A path as it was written. -/
structure FilePath where
  /-- The path's own text. -/
  text : String
deriving DecidableEq, Repr, Inhabited

namespace FilePath

/-- One part of a path that counts when paths are compared. -/
inductive Component where
  /-- The root of an absolute path. -/
  | root
  /-- A leading `.`. -/
  | here
  /-- A `..`, kept as it is. -/
  | up
  /-- An entry of a directory. -/
  | name (chars : List Char)
deriving DecidableEq, Repr

/-- The component that a part between slashes stands for, behind the beginning of a path. -/
def Component.ofPart? (part : List Char) : Option Component :=
  if part = [] ∨ part = ['.'] then none
  else if part = ['.', '.'] then some .up
  else some (.name part)

/-- How a path begins: the component it begins with, if that is the root or a leading `.`, and the
parts behind it. -/
def beginning (p : FilePath) : Option Component × List (List Char) :=
  match Text.splitOn '/' p.text.toList with
  | [] => (none, [])
  | first :: rest =>
    if first = [] then (if rest = [] then (none, []) else (some .root, rest))
    else if first = ['.'] then (some .here, rest)
    else (none, first :: rest)

/-- The components of a path, in order. -/
def components (p : FilePath) : List Component :=
  let (start?, parts) := p.beginning
  start?.toList ++ parts.filterMap Component.ofPart?

/-- The path starts at the root. -/
def isAbsolute (p : FilePath) : Bool := p.text.toList.head? == some '/'

/-! ## Comparison -/

/-- The paths have the same components. -/
def same (p q : FilePath) : Bool := p.components == q.components

theorem same_iff {p q : FilePath} : p.same q ↔ p.components = q.components := by
  simp [same]

/-- The numbers by which a component is ordered: the root first, then `.`, then `..`, then names
by their characters. -/
def Component.orderKey : Component → List Nat
  | root => [0]
  | here => [1]
  | up => [2]
  | name chars => 3 :: chars.map Char.toNat

/-- The key by which paths are ordered. -/
def orderKey (p : FilePath) : List (List Nat) := p.components.map Component.orderKey

theorem Component.orderKey_injective {a b : Component} (h : a.orderKey = b.orderKey) : a = b := by
  cases a <;> cases b <;> simp_all [Component.orderKey]
  exact List.map_inj_right (fun x y hxy => Char.toNat_inj.1 hxy) |>.1 h

theorem orderKey_injective {p q : FilePath} (h : p.orderKey = q.orderKey) :
    p.components = q.components :=
  List.map_inj_right (fun _ _ => Component.orderKey_injective) |>.1 h

/-- The path comes before the other one. -/
def before (p q : FilePath) : Bool := p.orderKey < q.orderKey

/-! ## Taking apart and putting together -/

/-- The parts at the beginning of a list of parts that stand for no component. -/
def skipBlank (parts : List (List Char)) : List (List Char) :=
  parts.dropWhile fun part => (Component.ofPart? part).isNone

/-- The parts without those at the end that stand for no component. -/
def trimBlank (parts : List (List Char)) : List (List Char) := (skipBlank parts.reverse).reverse

/-- The parts behind the first `n` components. -/
def dropComponents : Nat → List (List Char) → List (List Char)
  | 0, parts => parts
  | _ + 1, [] => []
  | n + 1, part :: parts =>
    if (Component.ofPart? part).isNone then dropComponents (n + 1) parts
    else dropComponents n parts

/-- Parts with a slash between each two. -/
def partsText (parts : List (List Char)) : List Char := List.intercalate ['/'] parts

/-- The text of a beginning and the parts behind it. -/
def assemble (start? : Option Component) (parts : List (List Char)) : List Char :=
  match start?, parts with
  | some .root, _ => '/' :: partsText parts
  | some _, [] => ['.']
  | some _, _ :: _ => '.' :: '/' :: partsText parts
  | none, _ => partsText parts

/-- A path from its characters. -/
def ofChars (cs : List Char) : FilePath := ⟨String.ofList cs⟩

/-- The path without its last component; `none` for the root and for the empty path. -/
def parent? (p : FilePath) : Option FilePath :=
  let (start?, parts) := p.beginning
  match trimBlank parts, start? with
  | [], some .here => some ⟨""⟩
  | [], _ => none
  | part :: rest, _ => some (ofChars (assemble start? (trimBlank (part :: rest).dropLast)))

/-- `p` as seen from `dir`: `p` itself if it is absolute, else `p` behind `dir` and a slash, which
is left out where `dir` is empty or ends in one. -/
def join (dir p : FilePath) : FilePath :=
  if p.isAbsolute then p
  else
    match dir.text.toList.getLast? with
    | none => p
    | some '/' => ⟨dir.text ++ p.text⟩
    | some _ => ⟨dir.text ++ "/" ++ p.text⟩

theorem join_of_isAbsolute {dir p : FilePath} (h : p.isAbsolute) : dir.join p = p := by
  simp [join, h]

/-- The text of `p` behind `dir`, if the components of `p` begin with those of `dir`. -/
def relativeTo? (p dir : FilePath) : Option String :=
  let used := dir.components.length
  if dir.components.isPrefixOf p.components then
    let (start?, parts) := p.beginning
    let rest :=
      if used = 0 then assemble start? (trimBlank parts)
      else partsText (trimBlank (skipBlank (dropComponents (used - start?.toList.length) parts)))
    some (String.ofList rest)
  else none

end FilePath

end HotComponents
