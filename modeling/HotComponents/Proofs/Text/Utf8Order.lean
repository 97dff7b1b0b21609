import HotComponents.Proofs.Text.Utf8

/-!
# The order of texts and of their octets

Texts are ordered by the numbers of their characters, from the left. Written as UTF-8 they are in the
same order octet by octet: a first octet grows with the length of the sequence that it begins, and of
two sequences of one length the one of the smaller number is smaller at the first octet that differs.

* `encodeChar_lt`: sequences are in the order of their characters, whatever follows them;
* `encode_lt`: so are texts.
-/

namespace HotComponents.Text

variable {c d : Char} {n m : Nat} {cs ds : List Char} {rest rest' : List UInt8}

theorem octet_lt (h : n < m) (hm : m < 256) : octet n < octet m := by
  rw [UInt8.lt_iff_toNat_lt, toNat_octet (by omega), toNat_octet hm]
  exact h

/-- Of two octets with different numbers the smaller one decides. -/
theorem octet_cons_lt (h : n < m ∨ n = m ∧ rest < rest') (hm : m < 256) :
    octet n :: rest < octet m :: rest' := by
  rw [List.cons_lt_cons_iff]
  rcases h with h | ⟨rfl, h⟩
  · exact .inl (octet_lt h hm)
  · exact .inr ⟨rfl, h⟩

/-- Two sequences of two octets. -/
theorem two_lt (h : n < m) (hm : m < 0x800) :
    octet (0xC0 + n / 64) :: octet (0x80 + n % 64) :: rest <
      octet (0xC0 + m / 64) :: octet (0x80 + m % 64) :: rest' := by
  have hdigits : n / 64 < m / 64 ∨ n / 64 = m / 64 ∧ n % 64 < m % 64 := by omega
  refine octet_cons_lt (hdigits.imp (by omega) (And.imp (by omega) fun hlast => ?_)) (by omega)
  exact octet_cons_lt (.inl (by omega)) (by omega)

/-- Two sequences of three octets. -/
theorem three_lt (h : n < m) (hm : m < 0x10000) :
    octet (0xE0 + n / 4096) :: octet (0x80 + n / 64 % 64) :: octet (0x80 + n % 64) :: rest <
      octet (0xE0 + m / 4096) :: octet (0x80 + m / 64 % 64) :: octet (0x80 + m % 64) :: rest' := by
  have hdigits : n / 4096 < m / 4096 ∨ n / 4096 = m / 4096 ∧
      (n / 64 % 64 < m / 64 % 64 ∨ n / 64 % 64 = m / 64 % 64 ∧ n % 64 < m % 64) := by omega
  refine octet_cons_lt (hdigits.imp (by omega) (And.imp (by omega) fun hdigits => ?_)) (by omega)
  refine octet_cons_lt (hdigits.imp (by omega) (And.imp (by omega) fun hlast => ?_)) (by omega)
  exact octet_cons_lt (.inl (by omega)) (by omega)

/-- Two sequences of four octets. -/
theorem four_lt (h : n < m) (hm : m < 0x110000) :
    octet (0xF0 + n / 262144) :: octet (0x80 + n / 4096 % 64) :: octet (0x80 + n / 64 % 64) ::
        octet (0x80 + n % 64) :: rest <
      octet (0xF0 + m / 262144) :: octet (0x80 + m / 4096 % 64) :: octet (0x80 + m / 64 % 64) ::
        octet (0x80 + m % 64) :: rest' := by
  have hdigits : n / 262144 < m / 262144 ∨ n / 262144 = m / 262144 ∧
      (n / 4096 % 64 < m / 4096 % 64 ∨ n / 4096 % 64 = m / 4096 % 64 ∧
        (n / 64 % 64 < m / 64 % 64 ∨ n / 64 % 64 = m / 64 % 64 ∧ n % 64 < m % 64)) := by omega
  refine octet_cons_lt (hdigits.imp (by omega) (And.imp (by omega) fun hdigits => ?_)) (by omega)
  refine octet_cons_lt (hdigits.imp (by omega) (And.imp (by omega) fun hdigits => ?_)) (by omega)
  refine octet_cons_lt (hdigits.imp (by omega) (And.imp (by omega) fun hlast => ?_)) (by omega)
  exact octet_cons_lt (.inl (by omega)) (by omega)

/-- The sequence of a character comes before that of a later one, whatever follows them. -/
theorem encodeChar_lt (h : c < d) (rest rest' : List UInt8) :
    encodeChar c ++ rest < encodeChar d ++ rest' := by
  have hlt : c.toNat < d.toNat := h
  have hlast := toNat_bounds d
  -- The smaller number has no more octets than the greater one.
  simp only [encodeChar]
  split
  · split
    · exact octet_cons_lt (.inl hlt) (by omega)
    split
    · exact octet_cons_lt (.inl (by omega)) (by omega)
    split
    · exact octet_cons_lt (.inl (by omega)) (by omega)
    · exact octet_cons_lt (.inl (by omega)) (by omega)
  rw [if_neg (by omega : ¬ d.toNat < 0x80)]
  split
  · split
    · exact two_lt hlt (by omega)
    split
    · exact octet_cons_lt (.inl (by omega)) (by omega)
    · exact octet_cons_lt (.inl (by omega)) (by omega)
  rw [if_neg (by omega : ¬ d.toNat < 0x800)]
  split
  · split
    · exact three_lt hlt (by omega)
    · exact octet_cons_lt (.inl (by omega)) (by omega)
  rw [if_neg (by omega : ¬ d.toNat < 0x10000)]
  exact four_lt hlt (by omega)

theorem encode_cons (c : Char) (cs : List Char) : encode (c :: cs) = encodeChar c ++ encode cs :=
  List.flatMap_cons

theorem encodeChar_ne_nil (c : Char) : encodeChar c ≠ [] := by
  simp only [encodeChar]
  repeat' split
  all_goals exact List.cons_ne_nil _ _

/-- The octets of texts are in the order of the texts. -/
theorem encode_lt (h : cs < ds) : encode cs < encode ds := by
  induction cs generalizing ds with
  | nil =>
    cases ds with
    | nil => exact absurd h (List.lt_irrefl _)
    | cons d ds =>
      obtain ⟨b, octets, hd⟩ := List.exists_cons_of_ne_nil (encodeChar_ne_nil d)
      rw [encode_cons, hd]
      exact List.nil_lt_cons _ _
  | cons c cs ih =>
    cases ds with
    | nil => exact absurd h (List.not_lt_nil _)
    | cons d ds =>
      rw [encode_cons, encode_cons]
      rcases List.cons_lt_cons_iff.1 h with hfirst | ⟨rfl, hrest⟩
      · exact encodeChar_lt hfirst _ _
      · exact List.append_left_lt (ih hrest)

end HotComponents.Text
