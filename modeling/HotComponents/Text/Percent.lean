import HotComponents.Text.Digits
import HotComponents.Text.Octets

/-!
# Percent escapes

An octet that may not stand in a place is written as `%` and two hexadecimal digits. A `%` without
two digits after it stands for itself.

* `unescape_escapeOctet`: an escaped octet reads back as that octet.
-/

namespace HotComponents.Text

/-! ## Escaping -/

/-- An octet as `%` and two digits. -/
def escapeOctet (b : UInt8) : List Char :=
  ['%', hexDigit (b.toNat / 16), hexDigit (b.toNat % 16)]

/-- A text with the octets chosen by `mustEscape` escaped, and with every octet of a character
beyond ASCII escaped. -/
def percentEncode (mustEscape : UInt8 → Bool) (cs : List Char) : List Char :=
  (encode cs).flatMap fun b =>
    if mustEscape b || 0x80 ≤ b.toNat then escapeOctet b else [Char.ofNat b.toNat]

/-! ## Reading escapes -/

/-- The octet that two digits name. -/
def pairedDigits? (high low : UInt8) : Option UInt8 :=
  match hexValue? (Char.ofNat high.toNat), hexValue? (Char.ofNat low.toNat) with
  | some x, some y => some (octet (x * 16 + y))
  | _, _ => none

/-- The octets that a sequence with escapes stands for. -/
def unescape : List UInt8 → List UInt8
  | b :: high :: low :: more =>
    if b = 0x25 then
      match pairedDigits? high low with
      | some named => named :: unescape more
      | none => b :: unescape (high :: low :: more)
    else b :: unescape (high :: low :: more)
  | b :: rest => b :: unescape rest
  | [] => []

theorem unescape_escapeOctet (b : UInt8) : unescape (encode (escapeOctet b)) = [b] := by
  have all : ∀ n : Fin 256, unescape (encode (escapeOctet (octet n.val))) = [octet n.val] := by
    decide +kernel
  simpa [octet] using all ⟨b.toNat, b.toNat_lt⟩

/-- The text that a text with escapes stands for, read as UTF-8. -/
def percentDecode (cs : List Char) : List Char := decode (unescape (encode cs))

end HotComponents.Text
