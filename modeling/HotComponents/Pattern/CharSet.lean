/-!
# Sets of characters

A set of character numbers as ascending ranges that neither overlap nor touch, both ends included.
The surrogates are no characters, so the numbers on either side of them are neighbours.

* `CharSet.contains_ofRanges`: ranges in any order make the set of exactly their characters.
-/

namespace HotComponents.Pattern

/-- A set of character numbers. -/
abbrev CharSet := List (Nat × Nat)

namespace CharSet

/-- The number belongs to the set. -/
def contains (s : CharSet) (n : Nat) : Bool := s.any fun (low, high) => low ≤ n && n ≤ high

/-- The number of the next character. -/
def next (n : Nat) : Nat := if n = 0xD7FF then 0xE000 else n + 1

/-- The number of the character before. -/
def previous (n : Nat) : Nat := if n = 0xE000 then 0xD7FF else n - 1

/-- A range and ranges that begin no lower than it and each other, those that overlap or touch made
one. -/
def joinOnto (low high : Nat) : List (Nat × Nat) → CharSet
  | [] => [(low, high)]
  | (l, h) :: rest =>
    if l ≤ next high then joinOnto low (max high h) rest else (low, high) :: joinOnto l h rest

/-- The set of the given ranges. -/
def ofRanges (ranges : List (Nat × Nat)) : CharSet :=
  match ranges.mergeSort fun r s => r.1 ≤ s.1 with
  | [] => []
  | (low, high) :: rest => joinOnto low high rest

/-- The numbers of either set. -/
def union (s t : CharSet) : CharSet := ofRanges (s ++ t)

/-- The numbers from `first` to `limit` that do not belong to the set. -/
def complementFrom (first limit : Nat) : CharSet → CharSet
  | [] => if first ≤ limit then [(first, limit)] else []
  | (l, h) :: rest =>
    if first < l then (first, previous l) :: complementFrom (next h) limit rest
    else complementFrom (next h) limit rest

/-- The numbers up to `limit` that do not belong to the set. -/
def complement (limit : Nat) (s : CharSet) : CharSet := complementFrom 0 limit s

/-- The numbers up to `limit` of both sets. -/
def intersection (limit : Nat) (s t : CharSet) : CharSet :=
  complement limit (union (complement limit s) (complement limit t))

/-- The numbers up to `limit` of the first set that do not belong to the second. -/
def difference (limit : Nat) (s t : CharSet) : CharSet :=
  intersection limit s (complement limit t)

/-- The numbers up to `limit` of exactly one of the sets. -/
def symmetricDifference (limit : Nat) (s t : CharSet) : CharSet :=
  union (difference limit s t) (difference limit t s)

/-- All numbers of the set are ASCII. -/
def isAscii (s : CharSet) : Bool := s.all fun (_, high) => high < 0x80

/-- The other case of each ASCII letter of the set. -/
def otherCases (s : CharSet) : List (Nat × Nat) :=
  (List.range 26).flatMap fun i =>
    (if contains s (0x41 + i) then [(0x61 + i, 0x61 + i)] else []) ++
      if contains s (0x61 + i) then [(0x41 + i, 0x41 + i)] else []

/-- The set with both cases of every ASCII letter in it. -/
def foldAscii (s : CharSet) : CharSet := s.union s.otherCases

theorem contains_joinOnto {low high n : Nat} {ranges : List (Nat × Nat)}
    (hscalar : n < 0xD800 ∨ 0xDFFF < n) (hproper : ∀ r ∈ ranges, r.1 ≤ r.2)
    (hascending : ((low, high) :: ranges).Pairwise fun r s => r.1 ≤ s.1) (h : low ≤ high) :
    contains (joinOnto low high ranges) n =
      ((decide (low ≤ n) && decide (n ≤ high)) || contains ranges n) := by
  induction ranges generalizing low high with
  | nil => simp [joinOnto, contains]
  | cons r rest ih =>
    obtain ⟨l, u⟩ := r
    have hl : low ≤ l := (List.pairwise_cons.1 hascending).1 (l, u) List.mem_cons_self
    have hu : l ≤ u := hproper (l, u) List.mem_cons_self
    have hproper' : ∀ r ∈ rest, r.1 ≤ r.2 := fun r hr => hproper r (List.mem_cons_of_mem _ hr)
    have hinner := (List.pairwise_cons.1 hascending).2
    unfold joinOnto
    split
    · next htouch =>
      have houter : ((low, max high u) :: rest).Pairwise fun r s => r.1 ≤ s.1 :=
        List.pairwise_cons.2 ⟨fun r hr => (List.pairwise_cons.1 hascending).1 r
          (List.mem_cons_of_mem _ hr), (List.pairwise_cons.1 hinner).2⟩
      rw [ih hproper' houter (by omega)]
      simp only [contains, List.any_cons, ← Bool.or_assoc]
      congr 1
      rw [Bool.eq_iff_iff]
      simp only [Bool.or_eq_true, Bool.and_eq_true, decide_eq_true_eq]
      unfold next at htouch
      split at htouch <;> omega
    · have := ih hproper' hinner hu
      simp only [contains, List.any_cons] at this ⊢
      rw [this]

theorem contains_ofRanges {n : Nat} {ranges : List (Nat × Nat)}
    (hscalar : n < 0xD800 ∨ 0xDFFF < n) (hproper : ∀ r ∈ ranges, r.1 ≤ r.2) :
    contains (ofRanges ranges) n = contains ranges n := by
  have hperm := List.mergeSort_perm ranges fun r s => decide (r.1 ≤ s.1)
  have hsorted : (ranges.mergeSort fun r s => decide (r.1 ≤ s.1)).Pairwise fun r s =>
      decide (r.1 ≤ s.1) = true :=
    List.pairwise_mergeSort (by simp only [decide_eq_true_eq]; omega)
      (by simp only [Bool.or_eq_true, decide_eq_true_eq]; omega) _
  simp only [decide_eq_true_eq] at hsorted
  have hsame : contains (ranges.mergeSort fun r s => decide (r.1 ≤ s.1)) n = contains ranges n :=
    hperm.any_eq
  have hproper' : ∀ r ∈ ranges.mergeSort fun r s => decide (r.1 ≤ s.1), r.1 ≤ r.2 :=
    fun r hr => hproper r (hperm.mem_iff.1 hr)
  unfold ofRanges
  split
  · next he => rw [← hsame, he]
  · next low high rest he =>
    rw [he] at hsame hsorted hproper'
    rw [contains_joinOnto hscalar (fun r hr => hproper' r (List.mem_cons_of_mem _ hr)) hsorted
      (hproper' _ List.mem_cons_self), ← hsame]
    rfl

end CharSet

end HotComponents.Pattern
