/-!
# Digits

Digits and the numbers they write, up to base sixteen, and characters by their numbers.

* `hexValue?_hexDigit`: a digit that is written reads back as its value;
* `digitsValue_append`: numbers are read from the left;
* `scalar?_toNat`: a character is found by its own number.
-/

namespace HotComponents.Text

/-- The hexadecimal digits in order, letters in capitals. -/
def capitalDigits : List Char := "0123456789ABCDEF".toList

/-- The hexadecimal digits in order, letters small. -/
def smallDigits : List Char := "0123456789abcdef".toList

/-- The digit of a number below 16. -/
def hexDigit (n : Nat) : Char := capitalDigits.getD n '0'

/-- The value of a hexadecimal digit in either case. -/
def hexValue? (c : Char) : Option Nat :=
  let n := c.toNat
  if 48 ≤ n ∧ n ≤ 57 then some (n - 48)
  else if 65 ≤ n ∧ n ≤ 70 then some (n - 55)
  else if 97 ≤ n ∧ n ≤ 102 then some (n - 87)
  else none

theorem hexValue?_hexDigit {n : Nat} (h : n < 16) : hexValue? (hexDigit n) = some n := by
  have all : ∀ m ∈ List.range 16, hexValue? (hexDigit m) = some m := by decide
  exact all n (List.mem_range.2 h)

/-! ## Numbers -/

/-- The value of digits in a base. -/
def digitsValue (base : Nat) (digits : List Char) : Nat :=
  digits.foldl (fun n d => n * base + (hexValue? d).getD 0) 0

theorem digitsValue_append (base : Nat) (digits : List Char) (d : Char) :
    digitsValue base (digits ++ [d]) = digitsValue base digits * base + (hexValue? d).getD 0 := by
  simp [digitsValue]

/-- The character of a number that is one. -/
def scalar? (n : Nat) : Option Char := if n.isValidChar then some (Char.ofNat n) else none

theorem scalar?_toNat (c : Char) : scalar? c.toNat = some c := by
  rw [scalar?, if_pos (show c.toNat.isValidChar from c.valid), Char.ofNat_toNat]

end HotComponents.Text
