/-!
# Reading from the front of a text

A reading takes characters from the front of a text and says what they mean, or does not fit. The
loop over many items takes at least one character for each, so it runs at most once for every
character that is left.

* `run_run`: a run of characters and what is left make up the text;
* `head_run`: what is left behind a run begins with no character of it.
-/

namespace HotComponents.Toml

/-- Takes characters from the front of a text, or does not fit. -/
abbrev Reading (α : Type) := StateT (List Char) Option α

namespace Reading

/-- The next character, if it is accepted. -/
def one (accepted : Char → Bool) : Reading Char := fun text =>
  match text with
  | c :: rest => if accepted c then some (c, rest) else none
  | [] => none

/-- The characters up to the first one that is not accepted. -/
def run (accepted : Char → Bool) : Reading (List Char) := fun text =>
  some (text.takeWhile accepted, text.dropWhile accepted)

/-- A run of at least one character. -/
def run1 (accepted : Char → Bool) : Reading (List Char) := do
  let found ← run accepted
  guard !found.isEmpty
  return found

/-- Exactly these characters. -/
def exactly (expected : String) : Reading Unit := fun text =>
  if expected.toList.isPrefixOf text then some ((), text.drop expected.length) else none

/-- Items as long as they fit, at most so many. -/
def upTo {α : Type} (item : Reading α) : Nat → Reading (List α)
  | 0 => return []
  | n + 1 => do
    match ← optional item with
    | some a => return a :: (← upTo item n)
    | none => return []

/-- Items as long as they fit, at most one for each character of a text. -/
def within {α : Type} (item : Reading α) : List Char → Reading (List α)
  | [] => return []
  | _ :: text => do
    match ← optional item with
    | some a => return a :: (← within item text)
    | none => return []

/-- Items as long as they fit. -/
def many {α : Type} (item : Reading α) : Reading (List α) := do
  within item (← get)

/-- Items with separators between them, none behind the last. -/
def separated {α : Type} (item : Reading α) (separator : Reading Unit) : Reading (List α) := do
  match ← optional item with
  | some first => return first :: (← many (do separator; item))
  | none => return []

/-- What a reading makes of a whole text. -/
def whole? {α : Type} (r : Reading α) (text : List Char) : Option α :=
  match r text with
  | some (a, []) => some a
  | _ => none

theorem run_run (accepted : Char → Bool) (text : List Char) :
    ∃ found rest, run accepted text = some (found, rest) ∧ found ++ rest = text :=
  ⟨_, _, rfl, List.takeWhile_append_dropWhile⟩

theorem head_run {accepted : Char → Bool} {text found rest : List Char} {c : Char}
    (h : run accepted text = some (found, c :: rest)) : accepted c = false := by
  simp only [run, Option.some.injEq, Prod.mk.injEq] at h
  have := List.head?_dropWhile_not accepted text
  simpa [h.2] using this

end Reading

/-! ## Blanks, comments and line ends -/

open Reading

/-- The character may stand in a comment or a string as it is: a tab, or any character but the ASCII
controls. -/
def isPlain (c : Char) : Bool := c == '\t' || (0x20 ≤ c.toNat && c.toNat != 0x7F)

/-- Spaces and tabs. -/
def blanks : Reading Unit := do
  let _ ← run fun c => c == ' ' || c == '\t'

/-- A line feed, alone or behind a carriage return. -/
def newline : Reading Unit := exactly "\n" <|> exactly "\r\n"

/-- A comment, up to the end of its line. -/
def comment : Reading Unit := do
  exactly "#"
  let _ ← run isPlain

/-- The end of the text. -/
def ended : Reading Unit := do
  guard (← get).isEmpty

/-- The end of a line or of the text. -/
def lineEnd : Reading Unit := newline <|> ended

/-- What may stand behind a value or a header on its line, and the line's end. -/
def trailing : Reading Unit := do
  blanks
  let _ ← optional comment
  lineEnd

/-- Blanks, comments and line ends. -/
def gap : Reading Unit := do
  blanks
  let _ ← many do
    let _ ← optional comment
    newline
    blanks

end HotComponents.Toml
