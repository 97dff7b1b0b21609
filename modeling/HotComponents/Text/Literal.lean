import HotComponents.Text.Extending
import HotComponents.Text.Unprintable

/-!
# Quoted literals

A text between double quotes. The quote and the backslash are escaped; NUL, tab, line feed and
carriage return have short escapes; a character that would not show by itself, alone or because it
continues the one before it, is written by its number in braces.

* `literalChar_of_plain`: a plain ASCII character is written as it is.
-/

namespace HotComponents.Text

/-- A character by its number: `\u`, then the hexadecimal digits in braces. -/
def numberEscape (c : Char) : List Char :=
  ['\\', 'u', '\x7b'] ++ Nat.toDigits 16 c.toNat ++ ['\x7d']

/-- How a literal writes one character. -/
def literalChar (c : Char) : List Char :=
  if c = '\x00' then ['\\', '0']
  else if c = '\t' then ['\\', 't']
  else if c = '\r' then ['\\', 'r']
  else if c = '\n' then ['\\', 'n']
  else if c = '"' then ['\\', '"']
  else if c = '\\' then ['\\', '\\']
  else if isExtending c || !isPrintable c then numberEscape c
  else [c]

/-- A text as a quoted literal. -/
def literal (cs : List Char) : List Char := '"' :: cs.flatMap literalChar ++ ['"']

/-- A string as a quoted literal. -/
def quoted (s : String) : String := String.ofList (literal s.toList)

theorem literalChar_of_plain {c : Char} (hlow : 0x20 ≤ c.toNat) (hhigh : c.toNat < 0x7F)
    (hquote : c ≠ '"') (hbackslash : c ≠ '\\') : literalChar c = [c] := by
  have hnotControl : ∀ d : Char, d.toNat < 0x20 → c ≠ d := by
    intro d hd h; subst h; omega
  have h₁ := hnotControl '\x00' (by decide)
  have h₂ := hnotControl '\t' (by decide)
  have h₃ := hnotControl '\r' (by decide)
  have h₄ := hnotControl '\n' (by decide)
  have hprintable : isPrintable c := by simp [isPrintable, hlow, hhigh]
  have halone : isExtending c = false := by
    simp only [isExtending, Bool.and_eq_false_iff, decide_eq_false_iff_not]
    omega
  simp [literalChar, h₁, h₂, h₃, h₄, hquote, hbackslash, hprintable, halone]

end HotComponents.Text
