import HotComponents.Text.Digits
import HotComponents.Toml.Reading

/-!
# Numbers

Integers of 64 bits, in four bases, and numbers with a fraction or an exponent. An underscore may
stand between two digits. A number that is too great for its kind does not fit.
-/

namespace HotComponents.Toml

open Reading

/-- The character is a digit of a base. -/
def isDigitOf (base : Nat) (c : Char) : Bool := (Text.hexValue? c).any (· < base)

/-- Digits of a base, with underscores only between two of them. -/
def digits (base : Nat) : Reading (List Char) := do
  let first ← one (isDigitOf base)
  let rest ← many do
    let _ ← optional (exactly "_")
    one (isDigitOf base)
  return first :: rest

/-- A sign, if there is one; whether it is a minus. -/
def sign : Reading Bool := do
  match ← optional (one fun c => c == '+' || c == '-') with
  | some c => return c == '-'
  | none => return false

/-- The digits of a whole number: no zero before others. -/
def wholeDigits : Reading (List Char) := do
  let found ← digits 10
  guard (found.length = 1 || found.head? != some '0')
  return found

/-! ## Integers -/

/-- The least number above all integers of 64 bits. -/
def wordEnd : Nat := Nat.pow 2 63

/-- The number is an integer of 64 bits. -/
def isWord (n : Int) : Bool := decide (-wordEnd ≤ n ∧ n < wordEnd)

/-- An integer without a sign behind the mark of its base. -/
def markedInteger (mark : String) (base : Nat) : Reading Int := do
  exactly mark
  let n := Text.digitsValue base (← digits base)
  guard (isWord n)
  return n

/-- A decimal integer. -/
def decimalInteger : Reading Int := do
  let negative ← sign
  let n := Text.digitsValue 10 (← wholeDigits)
  let n : Int := if negative then -n else n
  guard (isWord n)
  return n

/-- An integer. -/
def integer : Reading Int :=
  markedInteger "0x" 16 <|> markedInteger "0o" 8 <|> markedInteger "0b" 2 <|> decimalInteger

/-! ## Numbers with a fraction or an exponent -/

/-- The least number that rounds to infinity: half a step above the greatest finite one. -/
def infiniteFrom : Nat := Nat.pow 2 1024 - Nat.pow 2 970

/-- The number `n · 10 ^ e` rounds to infinity. Far from the bound the count of its digits
decides. -/
def roundsToInfinity (n : Nat) (e : Int) : Bool :=
  if n = 0 then false
  else
    let magnitude := (Nat.toDigits 10 n).length + e
    if magnitude < 309 then false
    else if 309 < magnitude then true
    else if 0 ≤ e then infiniteFrom ≤ n * Nat.pow 10 e.toNat
    else infiniteFrom * Nat.pow 10 (-e).toNat ≤ n

/-- The digits of a fraction, from its point on. -/
def fraction : Reading (List Char) := do
  exactly "."
  digits 10

/-- An exponent, from its letter on. -/
def exponent : Reading Int := do
  let _ ← one fun c => c == 'e' || c == 'E'
  let negative ← sign
  let n := Text.digitsValue 10 (← digits 10)
  return if negative then -n else n

/-- A finite number with a fraction, an exponent or both. Only a positive one can be too great. -/
def finiteFloat : Reading Unit := do
  let negative ← sign
  let whole ← wholeDigits
  let part ← optional fraction
  let power ← if part.isSome then optional exponent else some <$> exponent
  let part := part.getD []
  let n := Text.digitsValue 10 (whole ++ part)
  guard (negative || !roundsToInfinity n (power.getD 0 - part.length))

/-- A number with a fraction or an exponent, an infinity, or no number. -/
def float : Reading Unit :=
  finiteFloat <|> do
    let _ ← sign
    exactly "inf" <|> exactly "nan"

end HotComponents.Toml
