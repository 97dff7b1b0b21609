/-!
# Rounds

Tasks run one at a time, each until it has to wait. A round takes the tasks that can run when it
begins and lets each run in order of starting; rounds follow each other until no task can run.

* `settle_of_idle`: where nothing can run, nothing changes;
* `settle_succ`: else a round is run, and the rest of the rounds behind it.
-/

namespace HotComponents

/-- How a task stands, as far as it is shown. -/
inductive Standing where
  /-- It waits. -/
  | waiting
  /-- It waits for its own compute. -/
  | computing
  /-- It has ended by itself. -/
  | done
  /-- It was cancelled. -/
  | cancelled
deriving DecidableEq, Repr

/-- The text of a standing. -/
def Standing.text : Standing → String
  | waiting => "waiting"
  | computing => "computing"
  | done => "done"
  | cancelled => "cancelled"

namespace Rounds

variable {σ : Type}

/-- One round. -/
def round (runnable : σ → List Nat) (resume : σ → Nat → σ) (s : σ) : σ :=
  (runnable s).foldl resume s

/-- Rounds until no task can run, at most `fuel` of them. -/
def settle (runnable : σ → List Nat) (resume : σ → Nat → σ) : Nat → σ → σ
  | 0, s => s
  | fuel + 1, s =>
    if (runnable s).isEmpty then s else settle runnable resume fuel (round runnable resume s)

theorem settle_of_idle {runnable : σ → List Nat} {resume : σ → Nat → σ} {s : σ}
    (h : runnable s = []) (fuel : Nat) : settle runnable resume fuel s = s := by
  cases fuel <;> simp [settle, h]

theorem settle_succ {runnable : σ → List Nat} {resume : σ → Nat → σ} {s : σ}
    (h : runnable s ≠ []) (fuel : Nat) :
    settle runnable resume (fuel + 1) s =
      settle runnable resume fuel (round runnable resume s) := by
  simp [settle, h]

end Rounds

end HotComponents
