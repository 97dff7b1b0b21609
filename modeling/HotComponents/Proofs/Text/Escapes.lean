import HotComponents.Proofs.Text.Utf8
import HotComponents.Text.Percent

/-!
# Reading what was percent-encoded

Octet by octet, an encoded text reads as the octets it was made of, and a text without `%` reads as
itself.

* `percentDecode_percentEncode`: whatever else is escaped, if `%` is the text reads back;
* `percentDecode_of_notMem`: where there is no `%` there is nothing to read;
* `notMem_percentEncode`: an encoded text holds no character that is escaped.
-/

namespace HotComponents.Text

/-! ## Octet by octet -/

theorem unescape_cons_of_ne {b : UInt8} (h : b ≠ 0x25) (rest : List UInt8) :
    unescape (b :: rest) = b :: unescape rest := by
  rcases rest with _ | ⟨high, _ | ⟨low, more⟩⟩ <;> simp [unescape, h]

/-- The octets of an escape: the `%` and two digits that name the octet. -/
theorem encode_escapeOctet (b : UInt8) :
    ∃ high low, encode (escapeOctet b) = [0x25, high, low] ∧ pairedDigits? high low = some b := by
  have hall : ∀ n : Fin 256,
      encode (escapeOctet (octet n.val)) =
        [0x25, octet (hexDigit (n.val / 16)).toNat, octet (hexDigit (n.val % 16)).toNat] ∧
      pairedDigits? (octet (hexDigit (n.val / 16)).toNat) (octet (hexDigit (n.val % 16)).toNat) =
        some (octet n.val) := by
    decide +kernel
  have hhere := hall ⟨b.toNat, b.toNat_lt⟩
  rw [show octet b.toNat = b by simp [octet]] at hhere
  exact ⟨_, _, hhere⟩

theorem unescape_escapeOctet_append (b : UInt8) (rest : List UInt8) :
    unescape (encode (escapeOctet b) ++ rest) = b :: unescape rest := by
  obtain ⟨high, low, hwritten, hnamed⟩ := encode_escapeOctet b
  simp [hwritten, unescape, hnamed]

/-! ## Texts -/

/-- The ASCII character of a number has that number. -/
theorem toNat_ofNat_of_lt {n : Nat} (h : n < 0x80) : (Char.ofNat n).toNat = n := by
  have hvalid : n.isValidChar := Or.inl (by omega)
  rw [Char.ofNat, dif_pos hvalid]
  rfl

theorem encode_append (cs ds : List Char) : encode (cs ++ ds) = encode cs ++ encode ds := by
  simp [encode]

/-- An octet below `0x80` in a sequence is the character itself. -/
theorem toNat_eq_of_mem_encodeChar {c : Char} {b : UInt8} (hb : b ∈ encodeChar c)
    (hlow : b.toNat < 0x80) : c.toNat = b.toNat := by
  have hvalid := toNat_bounds c
  simp only [encodeChar] at hb
  split at hb
  · next hone => simp_all [toNat_octet (show c.toNat < 256 by omega)]
  · -- every octet of a longer sequence is at least `0x80`
    exfalso
    split at hb
    · rcases List.mem_cons.1 hb with rfl | hb
      · rw [toNat_octet (by omega)] at hlow; omega
      · rw [List.mem_singleton.1 hb, toNat_octet (by omega)] at hlow; omega
    split at hb
    all_goals
      simp only [List.mem_cons, List.not_mem_nil, or_false] at hb
    · rcases hb with rfl | rfl | rfl <;> rw [toNat_octet (by omega)] at hlow <;> omega
    · rcases hb with rfl | rfl | rfl | rfl <;> rw [toNat_octet (by omega)] at hlow <;> omega

theorem unescape_of_notMem {octets : List UInt8} (h : 0x25 ∉ octets) :
    unescape octets = octets := by
  induction octets with
  | nil => rfl
  | cons b rest ih =>
    rw [List.mem_cons, not_or] at h
    rw [unescape_cons_of_ne (Ne.symm h.1), ih h.2]

/-- Where there is no `%` there is nothing to read. -/
theorem percentDecode_of_notMem {cs : List Char} (h : '%' ∉ cs) : percentDecode cs = cs := by
  have hplain : 0x25 ∉ encode cs := by
    intro hb
    obtain ⟨c, hc, hb⟩ := List.mem_flatMap.1 hb
    have hsame : c.toNat = '%'.toNat := toNat_eq_of_mem_encodeChar hb (by decide)
    exact h (Char.toNat_inj.1 hsame ▸ hc)
  rw [percentDecode, unescape_of_notMem hplain, decode_encode]

section Encoding

variable {mustEscape : UInt8 → Bool}

/-- What an octet is written as reads as that octet, if `%` itself is escaped. -/
theorem unescape_written_append (hpercent : mustEscape 0x25 = true) (b : UInt8)
    (rest : List UInt8) :
    unescape (encode (if mustEscape b || 0x80 ≤ b.toNat then escapeOctet b
      else [Char.ofNat b.toNat]) ++ rest) = b :: unescape rest := by
  split
  · exact unescape_escapeOctet_append b rest
  · next hplain =>
    simp only [Bool.or_eq_true, decide_eq_true_eq, not_or, Nat.not_le] at hplain
    have hcode : (Char.ofNat b.toNat).toNat = b.toNat := toNat_ofNat_of_lt (by omega)
    have self : encode [Char.ofNat b.toNat] = [b] := by
      simp [encode, encodeChar_of_lt (c := Char.ofNat b.toNat) (by omega), hcode, octet]
    have hother : b ≠ 0x25 := fun h => hplain.1 (h ▸ hpercent)
    rw [self, List.singleton_append, unescape_cons_of_ne hother]

/-- Whatever else is escaped, if `%` is the text reads back. -/
theorem percentDecode_percentEncode (hpercent : mustEscape 0x25 = true) (cs : List Char) :
    percentDecode (percentEncode mustEscape cs) = cs := by
  have hoctets : unescape (encode (percentEncode mustEscape cs)) = encode cs := by
    unfold percentEncode
    induction encode cs with
    | nil => rfl
    | cons b bs ih =>
      rw [List.flatMap_cons, encode_append, unescape_written_append hpercent, ih]
  rw [percentDecode, hoctets, decode_encode]

/-- An escape is made of `%` and digits. -/
theorem notMem_escapeOctet {c : Char} (hpercent : c ≠ '%') (hdigit : c ∉ capitalDigits)
    (b : UInt8) : c ∉ escapeOctet b := by
  have hisDigit : ∀ n < 16, hexDigit n ∈ capitalDigits := by decide
  have hhigh := hisDigit (b.toNat / 16) (by have := b.toNat_lt; omega)
  have hlow := hisDigit (b.toNat % 16) (by omega)
  simp only [escapeOctet, List.mem_cons, List.not_mem_nil, or_false, not_or]
  exact ⟨hpercent, fun h => hdigit (h ▸ hhigh), fun h => hdigit (h ▸ hlow)⟩

/-- An encoded text holds no character that is escaped. -/
theorem notMem_percentEncode {c : Char} (hescaped : mustEscape (octet c.toNat) = true)
    (hpercent : c ≠ '%') (hdigit : c ∉ capitalDigits) (cs : List Char) :
    c ∉ percentEncode mustEscape cs := by
  intro hc
  obtain ⟨b, -, hb⟩ := List.mem_flatMap.1 hc
  split at hb
  · exact notMem_escapeOctet hpercent hdigit b hb
  · next hplain =>
    simp only [Bool.or_eq_true, decide_eq_true_eq, not_or, Nat.not_le] at hplain
    rw [List.mem_singleton.1 hb, toNat_ofNat_of_lt (by omega)] at hescaped
    simp [octet, hplain.1] at hescaped

end Encoding

end HotComponents.Text
