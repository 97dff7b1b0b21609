import HotComponents.Text.Split

/-!
# Faults in patterns

Where a pattern is wrong and why. A fault shows the pattern with the place marked below it: a
pattern of one line is indented by four blanks, a pattern of several lines has its lines numbered
between two rules, and a place that runs over several lines is given in words.

* `Position.offset_after`: positions advance character by character;
* `Span.marks_pos`: a place is marked by at least one sign.
-/

namespace HotComponents.Pattern

/-! ## Places -/

/-- A place between two characters of a pattern. -/
structure Position where
  /-- The number of characters before it. -/
  offset : Nat
  /-- Its line, from 1. -/
  line : Nat
  /-- Its column in characters, from 1. -/
  column : Nat
deriving DecidableEq, Repr, Inhabited

namespace Position

/-- The beginning of a pattern. -/
def first : Position := ⟨0, 1, 1⟩

/-- The position behind a character. -/
def after (p : Position) (c : Char) : Position :=
  if c = '\n' then ⟨p.offset + 1, p.line + 1, 1⟩ else ⟨p.offset + 1, p.line, p.column + 1⟩

@[simp] theorem offset_after (p : Position) (c : Char) : (p.after c).offset = p.offset + 1 := by
  unfold after
  split <;> rfl

end Position

/-- The part of a pattern between two positions. -/
structure Span where
  start : Position
  stop : Position
deriving DecidableEq, Repr, Inhabited

namespace Span

/-- The empty part at a position. -/
def point (p : Position) : Span := ⟨p, p⟩

/-- The span begins and ends on one line. -/
def isOneLine (s : Span) : Bool := s.start.line == s.stop.line

/-- The number of signs that mark a span of one line. -/
def marks (s : Span) : Nat := max 1 (s.stop.column - s.start.column)

theorem marks_pos (s : Span) : 0 < s.marks := by
  unfold marks
  omega

/-- The span begins before the other one, or with it and ends no later. -/
def notAfter (s t : Span) : Bool :=
  s.start.offset < t.start.offset ||
    (s.start.offset == t.start.offset && s.stop.offset ≤ t.stop.offset)

end Span

/-! ## Causes -/

/-- What can be wrong with a pattern. -/
inductive Cause where
  | classEscapeInvalid | classRangeInvalid | classRangeLiteral | classUnclosed
  | decimalEmpty | decimalInvalid
  | escapeHexEmpty | escapeHexInvalid | escapeHexInvalidDigit
  | escapeUnexpectedEnd | escapeUnrecognized
  | flagDanglingNegation | flagDuplicate | flagRepeatedNegation | flagUnexpectedEnd
  | flagUnrecognized
  | groupNameDuplicate | groupNameEmpty | groupNameInvalid | groupNameUnexpectedEnd
  | groupUnclosed | groupUnopened
  | nestLimitExceeded (limit : Nat)
  | repetitionCountInvalid | repetitionCountEmpty | repetitionCountUnclosed | repetitionMissing
  | wordBoundaryUnclosed | wordBoundaryUnrecognized | wordBoundaryUnexpectedEnd
  | propertyInvalid
  | backreference | lookAround
  | unicodeNotAllowed | invalidUtf8
  | propertyNotFound | propertyValueNotFound | perlClassNotFound | caseFoldingUnavailable
deriving DecidableEq, Repr

/-- The wording of a cause. -/
def Cause.message : Cause → String
  | classEscapeInvalid => "invalid escape sequence found in character class"
  | classRangeInvalid => "invalid character class range, the start must be <= the end"
  | classRangeLiteral => "invalid range boundary, must be a literal"
  | classUnclosed => "unclosed character class"
  | decimalEmpty => "decimal literal empty"
  | decimalInvalid => "decimal literal invalid"
  | escapeHexEmpty => "hexadecimal literal empty"
  | escapeHexInvalid => "hexadecimal literal is not a Unicode scalar value"
  | escapeHexInvalidDigit => "invalid hexadecimal digit"
  | escapeUnexpectedEnd => "incomplete escape sequence, reached end of pattern prematurely"
  | escapeUnrecognized => "unrecognized escape sequence"
  | flagDanglingNegation => "dangling flag negation operator"
  | flagDuplicate => "duplicate flag"
  | flagRepeatedNegation => "flag negation operator repeated"
  | flagUnexpectedEnd => "expected flag but got end of regex"
  | flagUnrecognized => "unrecognized flag"
  | groupNameDuplicate => "duplicate capture group name"
  | groupNameEmpty => "empty capture group name"
  | groupNameInvalid => "invalid capture group character"
  | groupNameUnexpectedEnd => "unclosed capture group name"
  | groupUnclosed => "unclosed group"
  | groupUnopened => "unopened group"
  | nestLimitExceeded limit =>
    "exceed the maximum number of nested parentheses/brackets (" ++ toString limit ++ ")"
  | repetitionCountInvalid => "invalid repetition count range, the start must be <= the end"
  | repetitionCountEmpty => "repetition quantifier expects a valid decimal"
  | repetitionCountUnclosed => "unclosed counted repetition"
  | repetitionMissing => "repetition operator missing expression"
  | wordBoundaryUnclosed =>
    "special word boundary assertion is either unclosed or contains an invalid character"
  | wordBoundaryUnrecognized =>
    "unrecognized special word boundary assertion, valid choices are: start, end, start-half or " ++
      "end-half"
  | wordBoundaryUnexpectedEnd =>
    "found either the beginning of a special word boundary or a bounded repetition on a \\b " ++
      "with an opening brace, but no closing brace"
  | propertyInvalid => "invalid Unicode character class"
  | backreference => "backreferences are not supported"
  | lookAround => "look-around, including look-ahead and look-behind, is not supported"
  | unicodeNotAllowed => "Unicode not allowed here"
  | invalidUtf8 => "pattern can match invalid UTF-8"
  | propertyNotFound => "Unicode property not found"
  | propertyValueNotFound => "Unicode property value not found"
  | perlClassNotFound =>
    "Unicode-aware Perl class not found (make sure the unicode-perl feature is enabled)"
  | caseFoldingUnavailable =>
    "Unicode-aware case insensitivity matching is not available (make sure the unicode-case " ++
      "feature is enabled)"

/-- A cause, its place and, where something is given twice, the place of the first. -/
structure Fault where
  cause : Cause
  span : Span
  earlier : Option Span := none
deriving DecidableEq, Repr

/-! ## Showing a fault -/

namespace Fault

/-- The places of a fault, in ascending order. -/
def spans (f : Fault) : List Span :=
  match f.earlier with
  | none => [f.span]
  | some s => if s.notAfter f.span then [s, f.span] else [f.span, s]

/-- Signs below the places of one line, the columns up to `column` already written. -/
def marking (column : Nat) : List Span → String
  | [] => ""
  | s :: rest =>
    let blanks := s.start.column - 1 - column
    "".pushn ' ' blanks ++ "".pushn '^' s.marks ++ marking (column + blanks + s.marks) rest

/-- The lines of a pattern, each behind its margin and above the signs that mark places in it; line
numbers are `width` digits wide, and there are none for width zero. -/
def notated (f : Fault) (width : Nat) (lines : List (List Char)) : String :=
  String.join <| (List.range lines.length).zipWith (fun i line =>
    let number := toString (i + 1)
    let margin :=
      if width = 0 then "    " else "".pushn ' ' (width - number.length) ++ number ++ ": "
    let here := f.spans.filter fun s => s.isOneLine && s.start.line == i + 1
    let marks :=
      if here.isEmpty then ""
      else "".pushn ' ' (if width = 0 then 4 else width + 2) ++ marking 0 here ++ "\n"
    margin ++ String.ofList line ++ "\n" ++ marks) lines

/-- A place that runs over several lines, in words. -/
def spread (s : Span) : String :=
  "on line " ++ toString s.start.line ++ " (column " ++ toString s.start.column ++
    ") through line " ++ toString s.stop.line ++ " (column " ++ toString (s.stop.column - 1) ++ ")"

/-- The text of a fault in a pattern. -/
def text (f : Fault) (pattern : String) : String :=
  let cs := pattern.toList
  let lines := Text.lines cs
  let count := lines.length + (if cs.getLast? = some '\n' then 1 else 0)
  let width := if count ≤ 1 then 0 else (toString count).length
  let body := f.notated width lines
  if cs.contains '\n' then
    let rule := "".pushn '~' 79 ++ "\n"
    let wide := (f.spans.filter fun s => !s.isOneLine).map spread
    let notes := if wide.isEmpty then "" else "\n".intercalate wide ++ "\n"
    "regex parse error:\n" ++ rule ++ body ++ rule ++ notes ++ "error: " ++ f.cause.message
  else "regex parse error:\n" ++ body ++ "error: " ++ f.cause.message

end Fault

end HotComponents.Pattern
