import HotComponents.Component.Markup

/-!
# Compilers at work

A compiler either follows a rule, a function of its input, and may pause a number of times before it
answers; or it is driven from outside, and each of its compiles ends with a result that is lined up
beforehand or delivered later.

* `start_rule`: a rule that never pauses answers at once;
* `inputs_start`: a compile that begins is counted;
* `deliver?_eq_none_iff`: a result can be delivered exactly to a compile that waits for one.
-/

namespace HotComponents

/-- Where results come from. -/
inductive CompilerKind where
  /-- A function of the input, behind a number of pauses. -/
  | rule (pauses : Nat) (compile : CompileInput → CompileResult)
  /-- Results from outside. -/
  | driven

/-- A compiler and its compiles. -/
structure Compiler where
  kind : CompilerKind
  /-- The number of compiles begun. -/
  started : Nat := 0
  /-- The compiles begun since they were last looked at, by number. -/
  inputs : List (Nat × CompileInput) := []
  /-- Results that are lined up. -/
  queue : List CompileResult := []
  /-- Compiles that wait for a result, by number. -/
  waiting : List Nat := []
  /-- Results that were delivered, by the number of the compile. -/
  delivered : List (Nat × CompileResult) := []

/-- What a compile is suspended on. -/
inductive Suspension where
  /-- Pauses that are still to come, the present one included. -/
  | pausing (left : Nat)
  /-- The result of the compile with a number. -/
  | awaiting (number : Nat)
deriving DecidableEq, Repr

/-- A compile that has ended or is suspended. -/
inductive Progress where
  | ended (result : CompileResult)
  | suspended (on : Suspension)

namespace Compiler

/-- The compiler with another compile begun. -/
def count (c : Compiler) (input : CompileInput) : Compiler :=
  { c with started := c.started + 1, inputs := c.inputs ++ [(c.started, input)] }

/-- A compile begins. -/
def start (c : Compiler) (input : CompileInput) : Compiler × Progress :=
  match c.kind with
  | .rule pauses compile =>
    (c.count input, if pauses = 0 then .ended (compile input) else .suspended (.pausing pauses))
  | .driven =>
    match c.queue with
    | result :: rest => ({ c.count input with queue := rest }, .ended result)
    | [] =>
      ({ c.count input with waiting := c.waiting ++ [c.started] },
        .suspended (.awaiting c.started))

/-- A suspended compile goes on, if what it is suspended on is over. -/
def resume (c : Compiler) (input : CompileInput) : Suspension → Progress
  | .pausing left =>
    if 1 < left then .suspended (.pausing (left - 1))
    else
      match c.kind with
      | .rule _ compile => .ended (compile input)
      | .driven => .suspended (.pausing left)
  | .awaiting number =>
    match c.delivered.find? fun entry => entry.1 = number with
    | some (_, result) => .ended result
    | none => .suspended (.awaiting number)

/-- What a compile ends in that is let go on until it ends; nothing if it waits for a result. -/
def completed? (c : Compiler) (input : CompileInput) : Progress → Option CompileResult
  | .ended result => some result
  | .suspended (.pausing _) =>
    match c.kind with
    | .rule _ compile => some (compile input)
    | .driven => none
  | .suspended (.awaiting number) =>
    (c.delivered.find? fun entry => entry.1 = number).map Prod.snd

/-- A suspended compile can go on. -/
def isReady (c : Compiler) : Suspension → Bool
  | .pausing _ => true
  | .awaiting number => c.delivered.any fun entry => entry.1 = number

/-- The compiler with results lined up behind those that are. -/
def lineUp (c : Compiler) (results : List CompileResult) : Compiler :=
  { c with queue := c.queue ++ results }

/-- The compiler with a result delivered to a compile that waits for one. -/
def deliver? (c : Compiler) (number : Nat) (result : CompileResult) : Option Compiler :=
  if c.waiting.contains number then
    some { c with
      waiting := c.waiting.filter (· ≠ number)
      delivered := c.delivered ++ [(number, result)] }
  else none

/-- The compiler with all its compiles looked at. -/
def lookedAt (c : Compiler) : Compiler := { c with inputs := [] }

theorem start_rule {c : Compiler} {compile : CompileInput → CompileResult}
    (h : c.kind = .rule 0 compile) (input : CompileInput) :
    (c.start input).2 = .ended (compile input) := by
  simp [start, h]

/-- A compile that begins is counted, whatever becomes of it. -/
theorem inputs_start (c : Compiler) (input : CompileInput) :
    (c.start input).1.inputs = c.inputs ++ [(c.started, input)] := by
  unfold start
  split
  · rfl
  · split <;> rfl

theorem deliver?_eq_none_iff {c : Compiler} {number : Nat} {result : CompileResult} :
    c.deliver? number result = none ↔ number ∉ c.waiting := by
  simp [deliver?]

end Compiler

end HotComponents
