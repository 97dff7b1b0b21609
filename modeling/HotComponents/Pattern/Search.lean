import HotComponents.Pattern.Expr
import Std.Data.HashMap

/-!
# Searching a text

An expression takes a set of places in a text to the set of places where a match that begins in one
of them can end. For one text the sets and conditions of an expression become the sets of places
where they hold, which makes a track. Places never move to the left, so a match that takes more turns
of one track than the text has places stays in place in some of them, and further turns add nothing.

* `Places.testBit_holding`: a place is held exactly where the condition holds;
* `Subject.testBit_occurrences`: a character occurs behind a place exactly if it stands there;
* `Places.testBit_across`: one character moves a place by one.
-/

namespace HotComponents.Pattern

/-! ## Places -/

/-- Places in a text: the bit of a number stands for the place behind as many characters. -/
abbrev Places := Nat

namespace Places

/-- The places before `n` where a condition holds. -/
def holding (n : Nat) (condition : Nat → Bool) : Places :=
  (List.range n).foldl (fun places p => if condition p then places ||| 1 <<< p else places) 0

/-- The places behind a character that is at one of the places and allowed. -/
def across (allowed places : Places) : Places := (places &&& allowed) <<< 1

/-- The places of the first set that are not in the second. -/
def without (places others : Places) : Places := places ^^^ (places &&& others)

theorem testBit_bit {n p : Nat} (h : p ≠ n) : (1 <<< n).testBit p = false := by
  rw [Nat.testBit_shiftLeft]
  rcases Nat.lt_or_gt_of_ne h with h | h
  · simp [Nat.not_le.2 h]
  · obtain ⟨k, hk⟩ : ∃ k, p - n = k + 1 := ⟨p - n - 1, by omega⟩
    simp [hk, Nat.testBit_succ]

theorem testBit_holding (n : Nat) (condition : Nat → Bool) (p : Nat) :
    (holding n condition).testBit p = (decide (p < n) && condition p) := by
  unfold holding
  induction n with
  | zero => simp
  | succ n ih =>
    rw [List.range_succ, List.foldl_append, List.foldl_cons, List.foldl_nil]
    by_cases hp : p = n
    · subst hp
      split
      · next h => simp [Nat.testBit_or, Nat.testBit_shiftLeft, h]
      · next h => rw [ih]; simp [h]
    · -- A place other than the last one is decided by the shorter range.
      have hsame : decide (p < n + 1) = decide (p < n) := by
        rw [decide_eq_decide]; omega
      rw [hsame, ← ih]
      split
      · rw [Nat.testBit_or, testBit_bit hp, Bool.or_false]
      · rfl

theorem testBit_across (allowed places : Places) (p : Nat) :
    (across allowed places).testBit (p + 1) = (places.testBit p && allowed.testBit p) := by
  simp [across, Nat.testBit_shiftLeft, Nat.testBit_and]

/-- The places after `n` turns. -/
def turns (step : Places → Places) : Nat → Places → Places
  | 0, places => places
  | n + 1, places =>
    let later := step places
    if later = places then places else turns step n later

/-- The places that up to `n` turns reach; the fresh ones are those that the last turn was the first
to reach. -/
def reach (step : Places → Places) : Nat → Places → Places → Places
  | 0, _, places => places
  | n + 1, fresh, places =>
    let fresh := without (step fresh) places
    if fresh = 0 then places else reach step n fresh (places ||| fresh)

end Places

/-! ## The text -/

/-- A text that is searched. -/
structure Subject where
  chars : Array Char
  /-- The places before each character that occurs in it, by the number of the character. -/
  occurrences : Std.HashMap Nat Places

namespace Subject

/-- The places before each of the first `n` characters. -/
def occurrencesBelow (chars : Array Char) (n : Nat) : Std.HashMap Nat Places :=
  (List.range n).foldl (fun seen p =>
    match chars[p]? with
    | some c => seen.insert c.toNat (seen.getD c.toNat 0 ||| 1 <<< p)
    | none => seen) {}

/-- The text of a string. -/
def ofString (s : String) : Subject :=
  let chars := s.toList.toArray
  ⟨chars, occurrencesBelow chars chars.size⟩

/-- The number of characters. -/
def size (text : Subject) : Nat := text.chars.size

/-- The places before a character. -/
def before (text : Subject) (c : Char) : Places := text.occurrences.getD c.toNat 0

/-- The places before the characters of a set. -/
def beforeAny (text : Subject) (chars : CharSet) : Places :=
  text.occurrences.fold (fun places n here =>
    if chars.contains n then places ||| here else places) 0

theorem testBit_occurrencesBelow (chars : Array Char) (n : Nat) (c : Char) (p : Nat) :
    ((occurrencesBelow chars n).getD c.toNat 0).testBit p =
      (decide (p < n) && chars[p]? == some c) := by
  unfold occurrencesBelow
  induction n with
  | zero => simp
  | succ n ih =>
    rw [List.range_succ, List.foldl_append, List.foldl_cons, List.foldl_nil]
    by_cases hp : p = n
    · subst hp
      split
      · next d hd =>
        rw [Std.HashMap.getD_insert]
        -- The last character sets its own bit in its own number, and no other.
        by_cases hc : d = c
        · subst hc
          simp [Nat.testBit_or, Nat.testBit_shiftLeft, hd]
        · simp [Char.toNat_inj, hc, ih, hd]
      · next hd => rw [ih]; simp [hd]
    · have hsame : decide (p < n + 1) = decide (p < n) := by
        rw [decide_eq_decide]; omega
      rw [hsame, ← ih]
      split
      · next d hd =>
        rw [Std.HashMap.getD_insert]
        by_cases hc : d = c
        · subst hc
          simp [Nat.testBit_or, Places.testBit_bit hp]
        · simp [Char.toNat_inj, hc]
      · rfl

theorem testBit_occurrences (s : String) (c : Char) (p : Nat) :
    ((ofString s).before c).testBit p = ((ofString s).chars[p]? == some c) := by
  have h := testBit_occurrencesBelow s.toList.toArray s.toList.toArray.size c p
  rw [show (ofString s).before c = (occurrencesBelow s.toList.toArray
    s.toList.toArray.size).getD c.toNat 0 from rfl, h]
  by_cases hp : p < s.toList.toArray.size
  · simp only [hp, decide_true, Bool.true_and]; rfl
  · rw [show (ofString s).chars[p]? = none from Array.getElem?_eq_none (Nat.le_of_not_lt hp)]
    simp only [hp, decide_false, Bool.false_and]
    rfl

end Subject

/-! ## Conditions -/

/-- The place lies behind or before a character of a word. -/
def isWordCharacter (c : Option Char) : Bool := c.any fun c => c.isAlphanum || c == '_'

/-- The condition holds between the words on both sides of a place. -/
def WordPlace.holds (before behind : Bool) : WordPlace → Bool
  | boundary => before != behind
  | noBoundary => before == behind
  | start => !before && behind
  | stop => before && !behind
  | startHalf => !before
  | stopHalf => !behind

/-- The condition holds at a place. -/
def Look.holds (text : Array Char) (p : Nat) (l : Look) : Bool :=
  let before := if p = 0 then none else text[p - 1]?
  let behind := text[p]?
  match l with
  | start => before.isNone
  | stop => behind.isNone
  | lineStart => before.isNone || before == some '\n'
  | lineStop => behind.isNone || behind == some '\n'
  | breakStart =>
    before.isNone || before == some '\n' || (before == some '\r' && behind != some '\n')
  | breakStop =>
    behind.isNone || behind == some '\r' || (behind == some '\n' && before != some '\r')
  | word unicode place => !unicode && place.holds (isWordCharacter before) (isWordCharacter behind)

/-! ## Tracks -/

/-- What an expression asks of one text. -/
inductive Track where
  /-- To be at one of the places. -/
  | at (places : Places)
  /-- To go across the character at one of the places. -/
  | across (places : Places)
  /-- One track behind another. -/
  | sequence (tracks : List Track)
  /-- Any of several tracks. -/
  | either (tracks : List Track)
  /-- A number of turns of a track. -/
  | repetition (least : Nat) (most : Option Nat) (sub : Track)
deriving Repr

mutual

/-- The track of an expression through a text. -/
def Expr.track (text : Subject) : Expr → Track
  | .empty => .sequence []
  | .literal chars => .sequence (chars.map fun c => .across (text.before c))
  | .set _ chars => .across (text.beforeAny chars)
  | .look l => .at (Places.holding (text.size + 1) fun p => l.holds text.chars p)
  | .repetition least most _ sub => .repetition least most (sub.track text)
  | .capture sub => sub.track text
  | .sequence parts => .sequence (Expr.tracks text parts)
  | .either branches => .either (Expr.tracks text branches)

/-- The tracks of expressions through a text. -/
def Expr.tracks (text : Subject) : List Expr → List Track
  | [] => []
  | e :: rest => e.track text :: Expr.tracks text rest

end

mutual

/-- The places where a track that begins in the given places can end, `size` being the number of
characters of the text. -/
def Track.ends (size : Nat) : Track → Places → Places
  | .at held, places => places &&& held
  | .across allowed, places => Places.across allowed places
  | .sequence tracks, places => Track.endsBehind size tracks places
  | .either tracks, places => Track.endsOfAny size tracks places
  | .repetition least most sub, places =>
    let enough := size + 1
    let fewest := Places.turns (sub.ends size) (min least enough) places
    let more := (most.map (· - least)).getD enough
    Places.reach (sub.ends size) (min more enough) fewest fewest

/-- The places where tracks one behind another can end. -/
def Track.endsBehind (size : Nat) : List Track → Places → Places
  | [], places => places
  | t :: rest, places => Track.endsBehind size rest (t.ends size places)

/-- The places where any of the tracks can end. -/
def Track.endsOfAny (size : Nat) : List Track → Places → Places
  | [], _ => 0
  | t :: rest, places => t.ends size places ||| Track.endsOfAny size rest places

end

/-- The expression matches somewhere in the text. -/
def Expr.isMatch (e : Expr) (s : String) : Bool :=
  let text := Subject.ofString s
  let everywhere := Places.holding (text.size + 1) fun _ => true
  (e.track text).ends text.size everywhere != 0

end HotComponents.Pattern
