import HotComponents.Pattern.Expr
import HotComponents.Pattern.OctetForm
import HotComponents.Text.Split
import Std.Data.HashMap

/-!
# The weight of a pattern's automaton

A pattern is refused when one of its automata, of which one reads a text onward and one backward,
would take too much memory. An automaton reads octets. Counted repetitions are written out in it, so
a short pattern can make a large one; its weight is found state by state, without the states.

Places of a set that lead on alike share a state as far as a small memory of states goes: a memory
keeps one state in each slot, and the slot of a state depends on the states that it leads to. So the
states have to be numbered as they are laid out.

* `Weight.octets_add`: weights add up.
-/

namespace HotComponents.Pattern

/-! ## Weights -/

/-- What an automaton takes. -/
structure Weight where
  /-- The number of its states. -/
  states : Nat := 0
  /-- The octets of the links that states hold beside themselves. -/
  links : Nat := 0
deriving DecidableEq, Repr

namespace Weight

/-- The memory that an automaton may take, in octets. -/
def limit : Nat := 10485760

instance : Add Weight := ⟨fun v w => ⟨v.states + w.states, v.links + w.links⟩⟩

/-- The memory that a weight stands for: 32 octets for each state, and the links. -/
def octets (w : Weight) : Nat := 32 * w.states + w.links

theorem octets_add (v w : Weight) : (v + w).octets = v.octets + w.octets := by
  show 32 * (v.states + w.states) + (v.links + w.links) = _
  simp only [octets]
  omega

/-- The weight with more on it, unless that is too much. -/
def add? (w more : Weight) : Option Weight :=
  let sum := w + more
  if limit < sum.octets then none else some sum

/-- The weight after `n` additions of one kind. -/
def times (add : Weight → Option Weight) : Nat → Weight → Option Weight
  | 0, w => some w
  | n + 1, w => do times add n (← add w)

end Weight

/-- The way in which an automaton reads a text. -/
inductive Direction where
  | onward | backward
deriving DecidableEq, Repr

/-! ## Sets -/

/-- The layout of a set: the weight so far, and the states that are remembered, each with what it was
made from in the slot that follows from that. -/
structure Layout where
  weight : Weight
  memory : Std.HashMap Nat (List Nat × Nat) := {}

/-- The slot, out of `slots`, of what a state is made from: the remainder of its 64-bit FNV-1a
hash. -/
def slotOf (slots : Nat) (key : List Nat) : Nat :=
  let hash := key.foldl (fun h n => (h ^^^ n.toUInt64) * 1099511628211) (14695981039346656037 : UInt64)
  hash.toNat % slots

namespace Layout

/-- A state by what it is made from: the one that is remembered, or a new one. -/
def state (slots links : Nat) (key : List Nat) (s : Layout) : Option (Nat × Layout) :=
  let slot := slotOf slots key
  let known := s.memory[slot]?.bind fun (made, n) => if made = key then some n else none
  match known with
  | some n => some (n, s)
  | none => do
    let weight ← s.weight.add? ⟨1, links⟩
    return (s.weight.states, ⟨weight, s.memory.insert slot (key, s.weight.states)⟩)

/-- The state from which the forms, of at most `depth` places, lead to `target`: one link of 8 octets
for each range of octets in the first place. -/
def branch (target : Nat) : Nat → List OctetForm → Layout → Option (Nat × Layout)
  | 0, _, s => some (target, s)
  | depth + 1, forms, s =>
    if forms.all List.isEmpty then some (target, s)
    else do
      let groups := forms.splitBy fun f g => f.head? == g.head?
      let (key, s) ← groups.foldlM (fun (key, s) group => do
        let (low, high) := (group.head?.bind List.head?).getD (0, 0)
        let (n, s) ← branch target depth (group.map List.tail) s
        return (key ++ [low, high, n], s)) ([], s)
      s.state 10000 (8 * groups.length) key

/-- The state from which the octets of a form, the last octet first, lead to `target`. -/
def chain (target : Nat) (form : OctetForm) (s : Layout) : Option (Nat × Layout) :=
  form.foldlM (fun (target, s) (low, high) => s.state 1000 0 [target, low, high]) (target, s)

end Layout

/-- The weight after the states of a set. A set within ASCII takes a state with a link for each range
and a state behind it. Any other set has its octets laid out; backward, each form is a chain of its
own between a state with a link of 4 octets to each and a state behind them. -/
def CharSet.lay (direction : Direction) (chars : CharSet) (w : Weight) : Option Weight :=
  if chars.isAscii then w.add? ⟨2, 8 * chars.length⟩
  else do
    let forms := chars.flatMap fun (low, high) => OctetForm.ofRange low high
    match direction with
    | .onward =>
      let (_, s) ← Layout.branch w.states 4 forms ⟨← w.add? ⟨1, 0⟩, {}⟩
      return s.weight
    | .backward =>
      let target := w.states + 1
      let s ← forms.foldlM (fun s form => do
        let (_, s) ← Layout.chain target form s
        return { s with weight := ← s.weight.add? ⟨0, 4⟩ }) ⟨← w.add? ⟨2, 0⟩, {}⟩
      return s.weight

/-! ## Words -/

/-- The octets with which words begin, each once. -/
def firstOctets (words : List (List UInt8)) : List UInt8 := (words.filterMap List.head?).eraseDups

/-- The rests of the words that begin with an octet. -/
def restsBehind (b : UInt8) (words : List (List UInt8)) : List (List UInt8) :=
  words.filterMap fun
    | c :: rest => if c = b then some rest else none
    | [] => none

/-- The weight of a tree of words of at most `depth` octets, earlier words preferred. In each of its
places a word that ends closes a run of words: a word behind it shares no step with those before. A
place has a state with a link of 4 octets to each run and each end, and a run has one state, with
links of 8 octets to its steps if they are several. -/
def treeWeight : Nat → List (List UInt8) → Weight
  | 0, _ => {}
  | depth + 1, words =>
    if words.all List.isEmpty then {}
    else
      let words :=
        match words with
        | [] :: rest => [] :: rest.dropWhile List.isEmpty
        | words => words
      let runs := Text.splitOn [] words
      let steps := (runs.map firstOctets).filter fun bs => !bs.isEmpty
      let here : Weight := ⟨1 + steps.length, 4 * (steps.length + (runs.length - 1))⟩
      let steps := steps.foldl (fun w bs => w + ⟨0, if bs.length = 1 then 0 else 8 * bs.length⟩) here
      runs.foldl (fun w run =>
        (firstOctets run).foldl (fun w b => w + treeWeight depth (restsBehind b run)) w) steps

/-- The octets of a literal. -/
def Expr.word? : Expr → Option (List UInt8)
  | .literal chars => some (Text.encode chars)
  | _ => none

/-- The weight of words side by side: their tree and a state behind it. -/
def wordsWeight (direction : Direction) (words : List (List UInt8)) : Weight :=
  let words := if direction = .onward then words else words.map List.reverse
  let depth := words.foldl (fun n word => max n word.length) 0
  treeWeight depth words + ⟨1, 0⟩

/-! ## Expressions -/

namespace Expr

mutual

/-- The weight after the states of an expression, which are numbered on from those before. -/
def lay (direction : Direction) : Expr → Weight → Option Weight
  | empty, w => w.add? ⟨1, 0⟩
  | literal chars, w => w.add? ⟨(Text.encode chars).length, 0⟩
  | set _ chars, w => chars.lay direction w
  | look _, w => w.add? ⟨1, 0⟩
  | repetition least most _ sub, w =>
    match most with
    | none =>
      if least ≠ 0 then do
        let w ← w.times (sub.lay direction) least
        w.add? ⟨1, 8⟩
      else if sub.leastLength?.any (0 < ·) then do
        let w ← w.add? ⟨1, 8⟩
        sub.lay direction w
      else do
        let w ← sub.lay direction w
        w.add? ⟨3, 16⟩
    | some most =>
      if least = most then w.times (sub.lay direction) least
      else if most = 1 then do
        let w ← w.add? ⟨1, 8⟩
        let w ← sub.lay direction w
        w.add? ⟨1, 0⟩
      else do
        let w ← if least = 0 then w.add? ⟨1, 0⟩ else some w
        let w ← w.times (sub.lay direction) least
        let w ← w.add? ⟨1, 0⟩
        w.times (fun w => do sub.lay direction (← w.add? ⟨1, 8⟩)) (most - least)
  | capture sub, w =>
    match direction with
    | .onward => do
      let w ← w.add? ⟨1, 0⟩
      let w ← sub.lay direction w
      w.add? ⟨1, 0⟩
    | .backward => sub.lay direction w
  | sequence parts, w =>
    match direction with
    | .onward => layOnward direction parts w
    | .backward => layBackward direction parts w
  | either branches, w =>
    match branches.mapM word? with
    | some words => w.add? (wordsWeight direction words)
    | none => layBranches direction 0 branches w

/-- The weight after the states of expressions, one behind another. -/
def layOnward (direction : Direction) : List Expr → Weight → Option Weight
  | [], w => some w
  | e :: rest, w => do layOnward direction rest (← e.lay direction w)

/-- The weight after the states of expressions, the last one first. -/
def layBackward (direction : Direction) : List Expr → Weight → Option Weight
  | [], w => some w
  | e :: rest, w => do e.lay direction (← layBackward direction rest w)

/-- The weight after the states of branches, `n` of which are laid out already. The second one brings
the state that leads to the branches and the state behind them, each further one a link. -/
def layBranches (direction : Direction) (n : Nat) : List Expr → Weight → Option Weight
  | [], w => some w
  | e :: rest, w => do
    let w ← e.lay direction w
    let w ← if n = 0 then some w else if n = 1 then w.add? ⟨2, 8⟩ else w.add? ⟨0, 4⟩
    layBranches direction (n + 1) rest w

end

/-- The weight of the automaton of an expression, unless that is too much: a way in, which is longer
where a match can begin anywhere in the direction, the expression, between states that remember the
match where the text is read onward, and an end. -/
def weight? (direction : Direction) (e : Expr) : Option Weight := do
  match direction with
  | .onward =>
    let w ← Weight.add? {} (if e.mustBeginAt .start then ⟨1, 0⟩ else ⟨3, 16⟩)
    let w ← w.add? ⟨1, 0⟩
    let w ← e.lay direction w
    w.add? ⟨2, 0⟩
  | .backward =>
    let w ← Weight.add? {} (if e.mustEndAt .stop then ⟨1, 0⟩ else ⟨3, 16⟩)
    let w ← e.lay direction w
    w.add? ⟨1, 0⟩

/-- The expression is a long list of words, which are looked for without an automaton. -/
def isWordList : Expr → Bool
  | either branches => 3000 ≤ branches.length && (branches.mapM word?).isSome
  | _ => false

end Expr

end HotComponents.Pattern
