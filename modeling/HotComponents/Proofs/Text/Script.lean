import HotComponents.Proofs.Text.Utf8
import HotComponents.Text.Digits
import HotComponents.Text.Literal

/-!
# What quoted literals mean in scripts

A quoted literal is put into an ECMAScript module. That is strict code, with rules of its own for
what stands between double quotes. A character stands for itself unless it is the quote, a backslash
or the end of a line. Behind a backslash stand one of a few letters, a number of two, four or any
number of hexadecimal digits, the end of a line, which then counts for nothing, or a character that
stands for itself. A `0` stands for NUL, but not before a digit: octal numbers are refused in strict
code. What a literal means is a sequence of code units of sixteen bits.

* `readBody?_literalChar`: what is written for one character means that character, whatever stands
  behind it, but for NUL before a digit;
* `value?_literal`: a quoted literal means its text, or is no literal because a NUL of the text
  stands before a digit.
-/

namespace HotComponents.Text.Script

/-! ## What literals mean -/

/-- The code units of a character's number: one, or two beyond `0xFFFF`. -/
def units (n : Nat) : List Nat :=
  if n < 0x10000 then [n] else [0xD800 + (n - 0x10000) / 0x400, 0xDC00 + (n - 0x10000) % 0x400]

/-- The code units of a text. -/
def textUnits (cs : List Char) : List Nat := cs.flatMap fun c => units c.toNat

/-- The character is a hexadecimal digit. -/
def isHex (c : Char) : Bool := (hexValue? c).isSome

/-- The character that a letter or sign behind a backslash stands for. -/
def shortEscape? : Char → Option Char
  | '\'' => some '\''
  | '"' => some '"'
  | '\\' => some '\\'
  | 'b' => some '\x08'
  | 'f' => some '\x0C'
  | 'n' => some '\n'
  | 'r' => some '\r'
  | 't' => some '\t'
  | 'v' => some '\x0B'
  | _ => none

/-- A code unit in so many hexadecimal digits, and the text behind it. -/
def readUnit? (width : Nat) (cs : List Char) : Option (List Nat × List Char) :=
  let digits := cs.take width
  if digits.length = width ∧ digits.all isHex then some ([digitsValue 16 digits], cs.drop width)
  else none

/-- The number of a character in hexadecimal digits up to a closing brace, and the text behind it. -/
def readBraced? (cs : List Char) : Option (List Nat × List Char) :=
  let digits := cs.takeWhile isHex
  match cs.dropWhile isHex with
  | '\x7d' :: behind =>
    if digits ≠ [] ∧ digitsValue 16 digits ≤ 0x10FFFF then
      some (units (digitsValue 16 digits), behind)
    else none
  | _ => none

/-- What stands behind a backslash at the beginning of a text, and the text behind it. -/
def readEscape? : List Char → Option (List Nat × List Char)
  | [] => none
  | '0' :: rest => if rest.head?.any Char.isDigit then none else some ([0], rest)
  | 'x' :: rest => readUnit? 2 rest
  | 'u' :: '\x7b' :: rest => readBraced? rest
  | 'u' :: rest => readUnit? 4 rest
  | '\r' :: '\n' :: rest => some ([], rest)
  | c :: rest =>
    match shortEscape? c with
    | some d => some (units d.toNat, rest)
    | none =>
      if c.isDigit then none
      else if c = '\n' ∨ c = '\r' ∨ c = '\u2028' ∨ c = '\u2029' then some ([], rest)
      else some (units c.toNat, rest)

theorem length_of_readUnit? {width : Nat} {cs more : List Char} {value : List Nat}
    (h : readUnit? width cs = some (value, more)) : more.length ≤ cs.length := by
  simp only [readUnit?] at h
  split at h
  · cases h
    simp
  · cases h

theorem length_of_readBraced? {cs more : List Char} {value : List Nat}
    (h : readBraced? cs = some (value, more)) : more.length ≤ cs.length := by
  simp only [readBraced?] at h
  split at h
  · next behind hbehind =>
    split at h
    · cases h
      have hshorter := (cs.dropWhile_sublist isHex).length_le
      rw [hbehind, List.length_cons] at hshorter
      omega
    · cases h
  · cases h

/-- An escape takes at least one character. -/
theorem length_of_readEscape? {cs more : List Char} {value : List Nat}
    (h : readEscape? cs = some (value, more)) : more.length < cs.length := by
  unfold readEscape? at h
  split at h
  · cases h
  · split at h
    · cases h
    · cases h
      simp
  · have := length_of_readUnit? h
    simp only [List.length_cons]
    omega
  · have := length_of_readBraced? h
    simp only [List.length_cons]
    omega
  · have := length_of_readUnit? h
    simp only [List.length_cons]
    omega
  · cases h
    simp only [List.length_cons]
    omega
  · repeat' split at h
    all_goals
      cases h
      try simp

/-- What a literal means behind its opening quote; the closing quote ends the text. -/
def readBody? : List Char → Option (List Nat)
  | [] => none
  | c :: rest =>
    if c = '"' then if rest = [] then some [] else none
    else if c = '\\' then
      match _h : readEscape? rest with
      | some (value, more) => (readBody? more).map (value ++ ·)
      | none => none
    else if c = '\n' ∨ c = '\r' then none
    else (readBody? rest).map (units c.toNat ++ ·)
termination_by cs => cs.length
decreasing_by
  · have := length_of_readEscape? ‹_›
    simp only [List.length_cons]
    omega
  · simp

/-- What a literal in double quotes means in strict code, if it is one. -/
def value? : List Char → Option (List Nat)
  | '"' :: rest => readBody? rest
  | _ => none

/-! ## Hexadecimal numbers -/

theorem hexValue?_digitChar : ∀ n < 16, hexValue? n.digitChar = some n := by decide

/-- A number that is written in hexadecimal digits is written in such digits and reads back. -/
theorem toDigits_sixteen (n : Nat) :
    (∀ d ∈ Nat.toDigits 16 n, isHex d) ∧ digitsValue 16 (Nat.toDigits 16 n) = n := by
  induction n using Nat.strongRecOn with
  | _ n ih =>
    rcases Nat.lt_or_ge n 16 with hsmall | hlarge
    · have hvalue := hexValue?_digitChar n hsmall
      rw [Nat.toDigits_of_lt_base hsmall]
      exact ⟨by simp [isHex, hvalue], by simp [digitsValue, hvalue]⟩
    · obtain ⟨hdigits, hvalue⟩ := ih (n / 16) (by omega)
      have hlast := hexValue?_digitChar (n % 16) (by omega)
      rw [Nat.toDigits_of_base_le (by decide) hlarge]
      refine ⟨?_, ?_⟩
      · rw [List.forall_mem_append]
        exact ⟨hdigits, by simp [isHex, hlast]⟩
      · rw [digitsValue_append, hvalue, hlast, Option.getD_some]
        omega

theorem readBraced?_toDigits (c : Char) (rest : List Char) :
    readBraced? (Nat.toDigits 16 c.toNat ++ '\x7d' :: rest) = some (units c.toNat, rest) := by
  obtain ⟨hdigits, hvalue⟩ := toDigits_sixteen c.toNat
  have hbrace : isHex '\x7d' = false := by decide
  have htaken : (Nat.toDigits 16 c.toNat ++ '\x7d' :: rest).takeWhile isHex =
      Nat.toDigits 16 c.toNat := by
    rw [List.takeWhile_append_of_pos hdigits, List.takeWhile_cons_of_neg (by simp [hbrace]),
      List.append_nil]
  have hleft : (Nat.toDigits 16 c.toNat ++ '\x7d' :: rest).dropWhile isHex = '\x7d' :: rest := by
    rw [List.dropWhile_append_of_pos hdigits, List.dropWhile_cons_of_neg (by simp [hbrace])]
  have hvalid : c.toNat ≤ 0x10FFFF := by
    have := toNat_bounds c
    omega
  simp only [readBraced?, htaken, hleft, hvalue]
  rw [if_pos ⟨Nat.toDigits_ne_nil, hvalid⟩]

/-! ## What one character is written as -/

theorem readBody?_plain {c : Char} (rest : List Char) (hquote : c ≠ '"') (hbackslash : c ≠ '\\')
    (hfeed : c ≠ '\n') (hcarriage : c ≠ '\r') :
    readBody? (c :: rest) = (readBody? rest).map (units c.toNat ++ ·) := by
  rw [readBody?, if_neg hquote, if_neg hbackslash, if_neg (by simp [hfeed, hcarriage])]

theorem readBody?_escape {written rest : List Char} {value : List Nat}
    (h : readEscape? written = some (value, rest)) :
    readBody? ('\\' :: written) = (readBody? rest).map (value ++ ·) := by
  rw [readBody?, if_neg (by decide), if_pos rfl]
  split
  · next value' more hfound =>
    cases h.symm.trans hfound
    rfl
  · next hnone =>
    cases h.symm.trans hnone

theorem readBody?_escape_none {written : List Char} (h : readEscape? written = none) :
    readBody? ('\\' :: written) = none := by
  rw [readBody?, if_neg (by decide), if_pos rfl]
  split
  · next value more hfound => cases h.symm.trans hfound
  · rfl

/-- What is written for one character means that character, whatever stands behind it, unless it is
NUL and a digit does. -/
theorem readBody?_literalChar {c : Char} {rest : List Char}
    (hapart : c = '\x00' → rest.head?.any Char.isDigit = false) :
    readBody? (literalChar c ++ rest) = (readBody? rest).map (units c.toNat ++ ·) := by
  unfold literalChar
  split
  · next hnul =>
    subst hnul
    have hread : readEscape? ('0' :: rest) = some (units 0, rest) := by
      simp [readEscape?, hapart rfl, units]
    exact readBody?_escape hread
  split
  · next htab => subst htab; exact readBody?_escape rfl
  split
  · next hcarriage => subst hcarriage; exact readBody?_escape rfl
  split
  · next hfeed => subst hfeed; exact readBody?_escape rfl
  split
  · next hquote => subst hquote; exact readBody?_escape rfl
  split
  · next hbackslash => subst hbackslash; exact readBody?_escape rfl
  split
  · have hbraced := readBraced?_toDigits c rest
    have hshown : numberEscape c ++ rest =
        '\\' :: 'u' :: '\x7b' :: (Nat.toDigits 16 c.toNat ++ '\x7d' :: rest) := by
      simp [numberEscape]
    rw [hshown]
    exact readBody?_escape hbraced
  · next hcarriage hfeed hquote hbackslash _ =>
    exact readBody?_plain rest hquote hbackslash hfeed hcarriage

/-- A NUL before a digit is written as an octal number. -/
theorem readBody?_nul {rest : List Char} (hdigit : rest.head?.any Char.isDigit) :
    readBody? (literalChar '\x00' ++ rest) = none := by
  have hrefused : readEscape? ('0' :: rest) = none := by simp [readEscape?, hdigit]
  exact readBody?_escape_none hrefused

/-! ## Whole literals -/

/-- A NUL stands directly before a digit. -/
def nulBeforeDigit : List Char → Bool
  | c :: d :: rest => c = '\x00' && d.isDigit || nulBeforeDigit (d :: rest)
  | _ => false

theorem nulBeforeDigit_cons (c : Char) (cs : List Char) :
    nulBeforeDigit (c :: cs) = (c = '\x00' && cs.head?.any Char.isDigit || nulBeforeDigit cs) := by
  cases cs with
  | nil => simp [nulBeforeDigit]
  | cons d cs => rfl

theorem nulBeforeDigit_of_notMem {cs : List Char} (h : '\x00' ∉ cs) :
    nulBeforeDigit cs = false := by
  induction cs with
  | nil => rfl
  | cons c cs ih =>
    rw [List.mem_cons, not_or] at h
    rw [nulBeforeDigit_cons, ih h.2, decide_eq_false (Ne.symm h.1)]
    rfl

/-- A sign that is neither NUL nor a digit keeps the texts before and behind it apart. -/
theorem nulBeforeDigit_append {sep : Char} (hnotNul : sep ≠ '\x00') (hnotDigit : sep.isDigit = false)
    (before after : List Char) : nulBeforeDigit (before ++ sep :: after) =
      (nulBeforeDigit before || nulBeforeDigit after) := by
  induction before with
  | nil => rw [List.nil_append, nulBeforeDigit_cons, decide_eq_false hnotNul]; rfl
  | cons c before ih =>
    have hhead : (before ++ sep :: after).head?.any Char.isDigit =
        before.head?.any Char.isDigit := by
      cases before with
      | nil => exact hnotDigit
      | cons d before => rfl
    rw [List.cons_append, nulBeforeDigit_cons, nulBeforeDigit_cons, ih, hhead, Bool.or_assoc]

/-- What is written for a character begins with a digit only if the character is one. -/
theorem head?_literalChar (c : Char) (rest : List Char) :
    (literalChar c ++ rest).head?.any Char.isDigit = c.isDigit := by
  cases hdigit : c.isDigit with
  | true =>
    simp only [Char.isDigit, Bool.and_eq_true, decide_eq_true_eq, UInt32.le_iff_toNat_le] at hdigit
    have hlow : 48 ≤ c.toNat := hdigit.1
    have hhigh : c.toNat ≤ 57 := hdigit.2
    have hother (d : Char) (hd : d.toNat < 48 ∨ 57 < d.toNat) : c ≠ d := by
      rintro rfl
      omega
    rw [literalChar_of_plain (by omega) (by omega) (hother '"' (by decide))
      (hother '\\' (by decide))]
    simpa [Char.isDigit, UInt32.le_iff_toNat_le] using hdigit
  | false =>
    have hsign : Char.isDigit '\\' = false := by decide
    unfold literalChar numberEscape
    repeat' split
    all_goals simp [hsign, hdigit]

theorem readBody?_literal (cs : List Char) :
    readBody? (cs.flatMap literalChar ++ ['"']) =
      if nulBeforeDigit cs then none else some (textUnits cs) := by
  induction cs with
  | nil => rw [readBody?.eq_def]; rfl
  | cons c cs ih =>
    have hnext : (cs.flatMap literalChar ++ ['"']).head?.any Char.isDigit =
        cs.head?.any Char.isDigit := by
      cases cs with
      | nil => rfl
      | cons d cs =>
        rw [List.flatMap_cons, List.append_assoc, head?_literalChar]
        rfl
    rw [List.flatMap_cons, List.append_assoc, nulBeforeDigit_cons, ← hnext]
    by_cases hoctal : c = '\x00' ∧ (cs.flatMap literalChar ++ ['"']).head?.any Char.isDigit
    · obtain ⟨rfl, hdigit⟩ := hoctal
      rw [readBody?_nul hdigit, hdigit]
      rfl
    · have hapart : c = '\x00' →
          (cs.flatMap literalChar ++ ['"']).head?.any Char.isDigit = false :=
        fun hnul => by simpa using fun hdigit => hoctal ⟨hnul, hdigit⟩
      have hplain : (decide (c = '\x00') &&
          (cs.flatMap literalChar ++ ['"']).head?.any Char.isDigit) = false := by
        simpa using hapart
      rw [readBody?_literalChar hapart, ih, hplain, Bool.false_or]
      split <;> rfl

/-- A quoted literal means its text, or is none because a NUL of the text stands before a digit. -/
theorem value?_literal (cs : List Char) :
    value? (literal cs) = if nulBeforeDigit cs then none else some (textUnits cs) :=
  readBody?_literal cs

end HotComponents.Text.Script
