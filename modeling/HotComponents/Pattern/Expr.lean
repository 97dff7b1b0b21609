import HotComponents.Pattern.CharSet

/-!
# Expressions

An expression says which texts match. Expressions are put together in a simplest form: parts of a
sequence that are sequences are taken apart, literals next to each other are one, single characters
and sets side by side are one set, and branches share a common beginning.

* `Expr.ofParts_singleton`, `Expr.ofBranches_singleton`: one part or branch is itself;
* `Expr.repeated_once`: once is the expression itself.
-/

namespace HotComponents.Pattern

/-! ## Conditions on places -/

/-- A condition on the words on both sides of a place. -/
inductive WordPlace where
  | boundary | noBoundary | start | stop | startHalf | stopHalf
deriving DecidableEq, Repr

/-- A condition on a place between two characters. -/
inductive Look where
  | start | stop
  | lineStart | lineStop
  /-- A line break is a line feed, a carriage return or both together. -/
  | breakStart | breakStop
  /-- A condition on words, in the sense of Unicode, for which there are no tables, or of ASCII. -/
  | word (unicode : Bool) (place : WordPlace)
deriving DecidableEq, Repr

/-! ## Expressions -/

/-- A set of texts, with conditions on their surroundings. -/
inductive Expr where
  /-- The empty text. -/
  | empty
  /-- One text that is not empty. -/
  | literal (chars : List Char)
  /-- One character of a set, which was made with Unicode on or off. -/
  | set (unicode : Bool) (chars : CharSet)
  /-- The empty text, where the condition holds. -/
  | look (l : Look)
  /-- A number of texts one behind another, as many or as few as possible first. -/
  | repetition (least : Nat) (most : Option Nat) (greedy : Bool) (sub : Expr)
  /-- A text that is remembered. -/
  | capture (sub : Expr)
  /-- One text behind another. -/
  | sequence (parts : List Expr)
  /-- Any of several. -/
  | either (branches : List Expr)
deriving Repr

namespace Expr

/-! ### Properties -/

mutual

/-- The expression matches nothing but the empty text, if anything. -/
def isEmptyOnly : Expr → Bool
  | empty => true
  | literal _ => false
  | set _ _ => false
  | look _ => true
  | repetition _ most _ sub => most == some 0 || sub.isEmptyOnly
  | capture sub => sub.isEmptyOnly
  | sequence parts => areEmptyOnly parts
  | either branches => areEmptyOnly branches

/-- All of the expressions match nothing but the empty text. -/
def areEmptyOnly : List Expr → Bool
  | [] => true
  | e :: rest => e.isEmptyOnly && areEmptyOnly rest

end

mutual

/-- The length of the shortest match; `none` if something in the expression matches nothing. -/
def leastLength? : Expr → Option Nat
  | empty => some 0
  | literal chars => some chars.length
  | set _ chars => if chars = [] then none else some 1
  | look _ => some 0
  | repetition least _ _ sub => sub.leastLength?.map (least * ·)
  | capture sub => sub.leastLength?
  | sequence parts => totalLength? parts
  | either branches => shortestLength? branches

/-- The length of the shortest matches of all expressions together. -/
def totalLength? : List Expr → Option Nat
  | [] => some 0
  | e :: rest => do return (← e.leastLength?) + (← totalLength? rest)

/-- The length of the shortest match of any of the expressions. -/
def shortestLength? : List Expr → Option Nat
  | [] => none
  | [e] => e.leastLength?
  | e :: rest => do return min (← e.leastLength?) (← shortestLength? rest)

end

mutual

/-- Every match begins in a place where the condition is asked for. -/
def mustBeginAt (l : Look) : Expr → Bool
  | look k => k == l
  | repetition least _ _ sub => least != 0 && sub.mustBeginAt l
  | capture sub => sub.mustBeginAt l
  | sequence parts => firstBeginsAt l parts
  | either branches => allBeginAt l branches
  | _ => false

/-- One of the parts that stand at the beginning begins in such a place. -/
def firstBeginsAt (l : Look) : List Expr → Bool
  | [] => false
  | e :: rest => e.mustBeginAt l || (e.isEmptyOnly && firstBeginsAt l rest)

/-- All of the branches begin in such places. -/
def allBeginAt (l : Look) : List Expr → Bool
  | [] => true
  | e :: rest => e.mustBeginAt l && allBeginAt l rest

end

mutual

/-- Every match ends in a place where the condition is asked for. -/
def mustEndAt (l : Look) : Expr → Bool
  | look k => k == l
  | repetition least _ _ sub => least != 0 && sub.mustEndAt l
  | capture sub => sub.mustEndAt l
  | sequence parts => lastEndsAt l parts
  | either branches => allEndAt l branches
  | _ => false

/-- One of the parts that stand at the end ends in such a place. -/
def lastEndsAt (l : Look) : List Expr → Bool
  | [] => false
  | e :: rest => lastEndsAt l rest || (areEmptyOnly rest && e.mustEndAt l)

/-- All of the branches end in such places. -/
def allEndAt (l : Look) : List Expr → Bool
  | [] => true
  | e :: rest => e.mustEndAt l && allEndAt l rest

end

mutual

/-- No condition in the expression needs tables that are missing. -/
def isSupported : Expr → Bool
  | look (.word unicode _) => !unicode
  | repetition _ _ _ sub => sub.isSupported
  | capture sub => sub.isSupported
  | sequence parts => areSupported parts
  | either branches => areSupported branches
  | _ => true

/-- No condition in the expressions needs tables that are missing. -/
def areSupported : List Expr → Bool
  | [] => true
  | e :: rest => e.isSupported && areSupported rest

end

mutual

/-- The expressions are written alike. Two texts that are remembered never are. -/
def isSame : Expr → Expr → Bool
  | empty, empty => true
  | literal s, literal t => s == t
  | set u s, set v t => u == v && s == t
  | look k, look l => k == l
  | repetition least most greedy a, repetition least' most' greedy' b =>
    least == least' && most == most' && greedy == greedy' && a.isSame b
  | sequence ps, sequence qs => areSame ps qs
  | either ps, either qs => areSame ps qs
  | _, _ => false

/-- The expressions are written alike one by one. -/
def areSame : List Expr → List Expr → Bool
  | [], [] => true
  | a :: as, b :: bs => a.isSame b && areSame as bs
  | _, _ => false

end

/-! ### Putting together -/

/-- The expression that matches nothing. -/
def never : Expr := set false []

/-- One character of a set: nothing, a literal, or the set. -/
def ofSet (unicode : Bool) : CharSet → Expr
  | [] => never
  | [(low, high)] =>
    if low = high then literal [Char.ofNat low] else set unicode [(low, high)]
  | chars => set unicode chars

/-- A repetition: once is enough for the empty text, no times gives the empty text, and exactly once
gives the text itself. -/
def repeated (least : Nat) (most : Option Nat) (greedy : Bool) (sub : Expr) : Expr :=
  let (least, most) :=
    if sub.isEmptyOnly then (min least 1, some (min (most.getD 1) 1)) else (least, most)
  if least = 0 ∧ most = some 0 then empty
  else if least = 1 ∧ most = some 1 then sub
  else repetition least most greedy sub

/-- Parts without the empty ones, literals next to each other made one. -/
def joinParts : List Expr → List Expr
  | [] => []
  | empty :: rest => joinParts rest
  | literal s :: rest =>
    match joinParts rest with
    | literal t :: more => literal (s ++ t) :: more
    | parts => literal s :: parts
  | e :: rest => e :: joinParts rest

/-- The parts of a sequence. -/
def parts : Expr → List Expr
  | sequence ps => ps
  | _ => []

/-- Parts one behind another. -/
def ofParts (es : List Expr) : Expr :=
  let flat := es.flatMap fun
    | sequence ps => ps
    | e => [e]
  match joinParts flat with
  | [] => empty
  | [e] => e
  | ps => sequence ps

/-- The one character of a literal. -/
def letter? : Expr → Option Char
  | literal [c] => some c
  | _ => none

/-- The characters of a set. -/
def set? : Expr → Option CharSet
  | set _ chars => some chars
  | _ => none

/-- Branches side by side, a common beginning left where it is. -/
def anyOf (es : List Expr) : Expr :=
  let flat := es.flatMap fun
    | either bs => bs
    | e => [e]
  match flat with
  | [] => never
  | [e] => e
  | bs =>
    match bs.mapM letter?, bs.mapM set? with
    | some cs, _ => ofSet true (CharSet.ofRanges (cs.map fun c => (c.toNat, c.toNat)))
    | none, some sets => ofSet true (CharSet.ofRanges sets.flatten)
    | none, none => either bs

/-- The longest common beginning of two lists of parts. -/
def commonStart : List Expr → List Expr → List Expr
  | a :: as, b :: bs => if a.isSame b then a :: commonStart as bs else []
  | _, _ => []

/-- The parts with which all of the sequences begin. -/
def commonParts : List Expr → List Expr
  | [] => []
  | e :: rest => rest.foldl (fun start e => commonStart start e.parts) e.parts

/-- Branches side by side, behind what all of them begin with. -/
def ofBranches (es : List Expr) : Expr :=
  match anyOf es with
  | either bs =>
    match commonParts bs with
    | [] => either bs
    | start =>
      let rests := bs.map fun e => ofParts (e.parts.drop start.length)
      ofParts (start ++ [anyOf rests])
  | e => e

theorem repeated_once (greedy : Bool) (sub : Expr) : repeated 1 (some 1) greedy sub = sub := by
  simp [repeated]

theorem ofParts_singleton {e : Expr} (h : ∀ ps, e ≠ sequence ps) : ofParts [e] = e := by
  cases e <;> simp_all [ofParts, joinParts]

theorem ofBranches_singleton {e : Expr} (h : ∀ bs, e ≠ either bs) : ofBranches [e] = e := by
  cases e <;> simp_all [ofBranches, anyOf]

end Expr

end HotComponents.Pattern
