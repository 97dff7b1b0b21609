/-!
# Characters and octets

The UTF-8 form of a text, and reading octets back as text. Reading never fails: every broken
sequence, taken as long as it could still have begun a character, becomes one replacement
character.

* `encodeChar_of_lt`: an ASCII character is the octet of its own code;
* `decode_nil`, `decode_cons`: reading goes sequence by sequence.
-/

namespace HotComponents.Text

/-- The octet of a number below 256. -/
def octet (n : Nat) : UInt8 := UInt8.ofNat n

/-! ## Writing -/

/-- The UTF-8 sequence of a character: one octet below `0x80`, two below `0x800`, three below
`0x10000`, else four. -/
def encodeChar (c : Char) : List UInt8 :=
  let n := c.toNat
  if n < 0x80 then [octet n]
  else if n < 0x800 then [octet (0xC0 + n / 64), octet (0x80 + n % 64)]
  else if n < 0x10000 then
    [octet (0xE0 + n / 4096), octet (0x80 + n / 64 % 64), octet (0x80 + n % 64)]
  else
    [octet (0xF0 + n / 262144), octet (0x80 + n / 4096 % 64), octet (0x80 + n / 64 % 64),
      octet (0x80 + n % 64)]

/-- The UTF-8 form of a text. -/
def encode (cs : List Char) : List UInt8 := cs.flatMap encodeChar

theorem encodeChar_of_lt {c : Char} (h : c.toNat < 0x80) : encodeChar c = [octet c.toNat] := by
  simp [encodeChar, h]

/-! ## Reading -/

/-- The character that stands for octets that are no text. -/
def replacement : Char := '\uFFFD'

/-- The least and greatest second octet of a sequence of three or four that starts with `b`:
narrower after the octets that could begin an overlong form, a surrogate or a number above
`0x10FFFF`. -/
def secondBounds (b : Nat) : Nat × Nat :=
  if b = 0xE0 then (0xA0, 0xBF)
  else if b = 0xED then (0x80, 0x9F)
  else if b = 0xF0 then (0x90, 0xBF)
  else if b = 0xF4 then (0x80, 0x8F)
  else (0x80, 0xBF)

/-- The octet is within bounds, the bounds included. -/
def within (b : UInt8) (bounds : Nat × Nat) : Bool :=
  bounds.1 ≤ b.toNat && b.toNat ≤ bounds.2

/-- The six payload bits of a continuation octet. -/
def payload (b : UInt8) : Nat := b.toNat % 64

/-- How a text starts with the octet `b`, the octets `rest` after it: the character, or `none` for
a broken sequence, and the number of octets of `rest` that belong to it. -/
def readSequence (b : UInt8) (rest : List UInt8) : Option Char × Nat :=
  let n := b.toNat
  let tail := (0x80, 0xBF)
  if n < 0x80 then (some (Char.ofNat n), 0)
  else if 0xC2 ≤ n ∧ n ≤ 0xDF then
    match rest with
    | b₁ :: _ =>
      if within b₁ tail then (some (Char.ofNat (n % 32 * 64 + payload b₁)), 1) else (none, 0)
    | [] => (none, 0)
  else if 0xE0 ≤ n ∧ n ≤ 0xEF then
    match rest with
    | b₁ :: more =>
      if within b₁ (secondBounds n) then
        match more with
        | b₂ :: _ =>
          if within b₂ tail then
            (some (Char.ofNat (n % 16 * 4096 + payload b₁ * 64 + payload b₂)), 2)
          else (none, 1)
        | [] => (none, 1)
      else (none, 0)
    | [] => (none, 0)
  else if 0xF0 ≤ n ∧ n ≤ 0xF4 then
    match rest with
    | b₁ :: more =>
      if within b₁ (secondBounds n) then
        match more with
        | b₂ :: most =>
          if within b₂ tail then
            match most with
            | b₃ :: _ =>
              if within b₃ tail then
                (some (Char.ofNat
                  (n % 8 * 262144 + payload b₁ * 4096 + payload b₂ * 64 + payload b₃)), 3)
              else (none, 2)
            | [] => (none, 2)
          else (none, 1)
        | [] => (none, 1)
      else (none, 0)
    | [] => (none, 0)
  else (none, 0)

/-- The text of an octet sequence, a replacement character for each broken part. -/
def decode : List UInt8 → List Char
  | [] => []
  | b :: rest =>
    let (c?, used) := readSequence b rest
    c?.getD replacement :: decode (rest.drop used)
termination_by octets => octets.length
decreasing_by simp only [List.length_drop, List.length_cons]; omega

/-- The text of an octet sequence all of which is text. -/
def decode? : List UInt8 → Option (List Char)
  | [] => some []
  | b :: rest =>
    match readSequence b rest with
    | (some c, used) => (decode? (rest.drop used)).map (c :: ·)
    | (none, _) => none
termination_by octets => octets.length
decreasing_by simp only [List.length_drop, List.length_cons]; omega

@[simp] theorem decode_nil : decode [] = [] := by rw [decode]

theorem decode_cons (b : UInt8) (rest : List UInt8) :
    decode (b :: rest) =
      (readSequence b rest).1.getD replacement :: decode (rest.drop (readSequence b rest).2) := by
  rw [decode]

end HotComponents.Text
