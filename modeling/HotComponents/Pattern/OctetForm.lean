import HotComponents.Text.Octets

/-!
# Ranges of characters, octet by octet

The characters of a range are the characters of a few *forms*, which allow a range of octets in each
place of the UTF-8 sequence independently of the other places.

* `OctetForm.cut_of_same`: a range inside one block is not cut.
-/

namespace HotComponents.Pattern

/-- A range of octets for each place of a sequence, both ends included. -/
abbrev OctetForm := List (Nat × Nat)

namespace OctetForm

/-- The octets of a character by its number. -/
def octets (n : Nat) : List Nat := (Text.encodeChar (Char.ofNat n)).map UInt8.toNat

/-- The numbers whose characters take more than one octet, by the number of octets, without the
surrogates. -/
def longBlocks : List (Nat × Nat) :=
  [(0x80, 0x7FF), (0x800, 0xD7FF), (0xE000, 0xFFFF), (0x10000, 0x10FFFF)]

/-- The part of a range that lies in a block. -/
def clip (low high : Nat) (block : Nat × Nat) : List (Nat × Nat) :=
  let l := max low block.1
  let h := min high block.2
  if l ≤ h then [(l, h)] else []

/-- A range in pieces, each of which lies in one block of `size` numbers or is made of whole
blocks. -/
def cut (size : Nat) (range : Nat × Nat) : List (Nat × Nat) :=
  let (low, high) := range
  let first := low / size
  let last := high / size
  if first = last then [range]
  else
    let start := if low % size = 0 then first else first + 1
    let stop := if high % size + 1 = size then last + 1 else last
    (if start = first then [] else [(low, start * size - 1)]) ++
      (if start < stop then [(start * size, stop * size - 1)] else []) ++
      if stop = last then [(stop * size, high)] else []

/-- The forms of the characters of a range, in ascending order. -/
def ofRange (low high : Nat) : List OctetForm :=
  let long := longBlocks.flatMap (clip low high)
  let pieces := ((long.flatMap (cut 64)).flatMap (cut 4096)).flatMap (cut 262144)
  (clip low high (0, 0x7F) ++ pieces).map fun (l, h) => (octets l).zip (octets h)

theorem cut_of_same {size : Nat} {range : Nat × Nat} (h : range.1 / size = range.2 / size) :
    cut size range = [range] := by
  simp [cut, h]

end OctetForm

end HotComponents.Pattern
