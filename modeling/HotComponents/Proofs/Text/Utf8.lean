import HotComponents.Text.Octets

/-!
# Reading what was written as UTF-8

A character's sequence is read as that character, whatever follows it, so a text survives being
written as octets and read again. The proof goes by the length of the sequence; what each length
needs is that its first octet names the length, that the octets after it are in bounds, and that the
payload bits add up to the number of the character.

* `decode_encodeChar`: the sequence of a character reads as that character and the rest;
* `decode_encode`: a text reads back as itself.
-/

namespace HotComponents.Text

theorem toNat_octet {n : Nat} (h : n < 256) : (octet n).toNat = n := by
  simp only [octet, UInt8.toNat_ofNat']
  omega

/-- The number of a character is no surrogate and not beyond the last one. -/
theorem toNat_bounds (c : Char) : c.toNat < 0xD800 ∨ 0xDFFF < c.toNat ∧ c.toNat < 0x110000 :=
  c.valid

/-- An octet that continues a sequence holds six bits. -/
theorem payload_continuation (n : Nat) : payload (octet (0x80 + n % 64)) = n % 64 := by
  rw [payload, toNat_octet (by omega)]
  omega

theorem within_continuation (n : Nat) : within (octet (0x80 + n % 64)) (0x80, 0xBF) := by
  simp only [within, toNat_octet (show 0x80 + n % 64 < 256 by omega), Bool.and_eq_true,
    decide_eq_true_eq]
  omega

theorem readSequence_of_lt {n : Nat} (h : n < 0x80) (rest : List UInt8) :
    readSequence (octet n) rest = (some (Char.ofNat n), 0) := by
  simp [readSequence, toNat_octet (show n < 256 by omega), h]

/-- Two octets: five bits and six. -/
theorem readSequence_two {n : Nat} (hlow : 0x80 ≤ n) (hhigh : n < 0x800) (rest : List UInt8) :
    readSequence (octet (0xC0 + n / 64)) (octet (0x80 + n % 64) :: rest) =
      (some (Char.ofNat n), 1) := by
  have hfirst : (octet (0xC0 + n / 64)).toNat = 0xC0 + n / 64 := toNat_octet (by omega)
  have hsum : (0xC0 + n / 64) % 32 * 64 + n % 64 = n := by omega
  simp only [readSequence, hfirst, within_continuation, payload_continuation, hsum]
  rw [if_neg (by omega), if_pos (by omega), if_pos trivial]

/-- The second of three octets is in the narrower bounds that some first octets ask for: no
sequence that a character has is overlong or a surrogate's. -/
theorem within_second_of_three {n : Nat} (hlow : 0x800 ≤ n) (hhigh : n < 0x10000)
    (hscalar : n < 0xD800 ∨ 0xDFFF < n) :
    within (octet (0x80 + n / 64 % 64)) (secondBounds (0xE0 + n / 4096)) := by
  simp only [within, secondBounds, toNat_octet (show 0x80 + n / 64 % 64 < 256 by omega),
    Bool.and_eq_true, decide_eq_true_eq]
  split
  · omega
  split
  · dsimp only; omega
  rw [if_neg (by omega), if_neg (by omega)]
  omega

theorem readSequence_three {n : Nat} (hlow : 0x800 ≤ n) (hhigh : n < 0x10000)
    (hscalar : n < 0xD800 ∨ 0xDFFF < n) (rest : List UInt8) :
    readSequence (octet (0xE0 + n / 4096))
      (octet (0x80 + n / 64 % 64) :: octet (0x80 + n % 64) :: rest) =
      (some (Char.ofNat n), 2) := by
  have hfirst : (octet (0xE0 + n / 4096)).toNat = 0xE0 + n / 4096 := toNat_octet (by omega)
  have hsum : (0xE0 + n / 4096) % 16 * 4096 + n / 64 % 64 * 64 + n % 64 = n := by omega
  simp only [readSequence, hfirst, within_continuation, payload_continuation, hsum,
    within_second_of_three hlow hhigh hscalar]
  rw [if_neg (by omega), if_neg (by omega), if_pos (by omega), if_pos trivial,
    if_pos trivial]

/-- The second of four octets is in bounds: the number is neither overlong nor too great. -/
theorem within_second_of_four {n : Nat} (hlow : 0x10000 ≤ n) (hhigh : n < 0x110000) :
    within (octet (0x80 + n / 4096 % 64)) (secondBounds (0xF0 + n / 262144)) := by
  simp only [within, secondBounds, toNat_octet (show 0x80 + n / 4096 % 64 < 256 by omega),
    Bool.and_eq_true, decide_eq_true_eq]
  rw [if_neg (by omega), if_neg (by omega)]
  split
  · omega
  split <;> (dsimp only; omega)

theorem readSequence_four {n : Nat} (hlow : 0x10000 ≤ n) (hhigh : n < 0x110000)
    (rest : List UInt8) :
    readSequence (octet (0xF0 + n / 262144))
      (octet (0x80 + n / 4096 % 64) :: octet (0x80 + n / 64 % 64) :: octet (0x80 + n % 64) ::
        rest) = (some (Char.ofNat n), 3) := by
  have hfirst : (octet (0xF0 + n / 262144)).toNat = 0xF0 + n / 262144 := toNat_octet (by omega)
  have hsum : (0xF0 + n / 262144) % 8 * 262144 + n / 4096 % 64 * 4096 + n / 64 % 64 * 64 + n % 64 =
      n := by omega
  simp only [readSequence, hfirst, within_continuation, payload_continuation, hsum,
    within_second_of_four hlow hhigh]
  rw [if_neg (by omega), if_neg (by omega), if_neg (by omega), if_pos (by omega),
    if_pos trivial, if_pos trivial, if_pos trivial]

/-- The sequence of a character reads as that character, whatever follows it. -/
theorem decode_encodeChar (c : Char) (rest : List UInt8) :
    decode (encodeChar c ++ rest) = c :: decode rest := by
  have hvalid := toNat_bounds c
  have self : Char.ofNat c.toNat = c := Char.ofNat_toNat c
  simp only [encodeChar]
  split
  · next hone => simp [decode_cons, readSequence_of_lt hone, self]
  split
  · next htwo => simp [decode_cons, readSequence_two (by omega) htwo, self]
  split
  · next hthree =>
    simp [decode_cons, readSequence_three (by omega) hthree (by omega), self]
  · next hfour =>
    simp [decode_cons, readSequence_four (show 0x10000 ≤ c.toNat by omega) (by omega), self]

/-- A text reads back as itself. -/
theorem decode_encode (cs : List Char) : decode (encode cs) = cs := by
  induction cs with
  | nil => simp [encode]
  | cons c cs ih =>
    rw [encode, List.flatMap_cons, ← encode, decode_encodeChar, ih]

end HotComponents.Text
