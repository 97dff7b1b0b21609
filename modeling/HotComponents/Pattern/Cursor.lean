import HotComponents.Pattern.Tree
import HotComponents.Text.Blank

/-!
# A place in a pattern that is being read

What is left of the pattern, where that is, whether blanks and comments are passed over, and the
group names seen so far; and the moves from one place to the next.

* `Cursor.length_bump`: a step leaves one character less;
* `Cursor.rest_bump`: what is left behind a step is the tail of what was left before.
-/

namespace HotComponents.Pattern

/-- A place in a pattern that is being read. -/
structure Cursor where
  /-- What is left of the pattern. -/
  rest : List Char
  /-- Where that is. -/
  place : Position
  /-- Blanks and comments are passed over. -/
  ignoreBlank : Bool
  /-- The group names seen so far. -/
  names : List (List Char × Span)

namespace Cursor

/-- The beginning of a pattern. -/
def first (pattern : String) : Cursor := ⟨pattern.toList, .first, false, []⟩

/-- One step on, if there is one. -/
def bump (c : Cursor) : Cursor :=
  match c.rest with
  | [] => c
  | x :: rest => { c with rest := rest, place := c.place.after x }

theorem rest_bump (c : Cursor) : c.bump.rest = c.rest.tail := by
  unfold bump
  split <;> simp_all

theorem length_bump (c : Cursor) : c.bump.rest.length = c.rest.length - 1 := by
  simp [rest_bump]

/-- What is left behind blanks and comments, a comment running from `#` to the end of its line. -/
def skipFrom (inComment : Bool) : List Char → Position → List Char × Position
  | [], p => ([], p)
  | x :: rest, p =>
    if inComment then skipFrom (x ≠ '\n') rest (p.after x)
    else if Text.isBlank x then skipFrom false rest (p.after x)
    else if x = '#' then skipFrom true rest (p.after x)
    else (x :: rest, p)

/-- On behind blanks and comments, if they are passed over. -/
def skipBlank (c : Cursor) : Cursor :=
  if c.ignoreBlank then
    let (rest, place) := skipFrom false c.rest c.place
    { c with rest := rest, place := place }
  else c

/-- On behind blanks, whether they are passed over elsewhere or not. -/
def skipPlainBlank (c : Cursor) : Cursor :=
  let blanks := c.rest.takeWhile Text.isBlank
  { c with rest := c.rest.dropWhile Text.isBlank, place := blanks.foldl Position.after c.place }

/-- The character behind the next one. -/
def peek? (c : Cursor) : Option Char := c.rest.tail.head?

/-- The first character that is no blank and not the sign that begins a comment. -/
def firstSolid? (inComment : Bool) : List Char → Option Char
  | [] => none
  | x :: rest =>
    if Text.isBlank x then firstSolid? inComment rest
    else if !inComment && x == '#' then firstSolid? true rest
    else some x

/-- The character behind the next one where blanks are passed over. -/
def peekSolid? (c : Cursor) : Option Char :=
  if c.ignoreBlank then (firstSolid? false c.rest.tail).or c.peek? else c.peek?

end Cursor

/-! ## Reading -/

/-- A reading of part of a pattern, which can end in a fault. -/
abbrev Reading := StateT Cursor (Except Fault)

namespace Reading

/-- Gives up with a fault. -/
def fail {α : Type} (cause : Cause) (span : Span) (earlier : Option Span := none) : Reading α :=
  throw ⟨cause, span, earlier⟩

/-- The next character. -/
def look : Reading (Option Char) := return (← get).rest.head?

/-- The place before the next character. -/
def place : Reading Position := return (← get).place

/-- One step on; whether something is left. -/
def bump : Reading Bool := do
  modify Cursor.bump
  return !(← get).rest.isEmpty

/-- One step on and behind blanks; whether something is left. -/
def bumpSpace : Reading Bool := do
  modify fun c => c.bump.skipBlank
  return !(← get).rest.isEmpty

/-- On behind blanks. -/
def skipBlank : Reading Unit := modify Cursor.skipBlank

/-- On behind a word if it comes next; whether it did. -/
def bumpIf (word : String) : Reading Bool := do
  let cs := word.toList
  if cs.isPrefixOf (← get).rest then
    modify fun c =>
      { c with rest := c.rest.drop cs.length, place := cs.foldl Position.after c.place }
    return true
  return false

/-- The place of the next character. -/
def spanChar : Reading Span := do
  let c ← get
  return ⟨c.place, c.place.after (c.rest.headD 'a')⟩

/-- From a position to here. -/
def spanFrom (start : Position) : Reading Span := return ⟨start, (← get).place⟩

/-- The empty span here. -/
def spanHere : Reading Span := return .point (← get).place

end Reading

end HotComponents.Pattern
