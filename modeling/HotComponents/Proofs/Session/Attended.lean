import HotComponents.Proofs.Session.Turns
import Mathlib.Data.List.Induction

/-!
# Tasks and their calls

Each task that is suspended has a call of its own on the cache, which has come as far as the stage
of the task says. So whatever happens to a session, a record comes into its cache only in the turn
of a task that ends a compile, and is the record of the output of that compile.

* `attended_apply`, `attended_run`: events keep tasks and calls together;
* `filled_run`: each record in the cache was produced in the run.
-/

namespace HotComponents

open ModuleId

namespace Session

open Workbench

variable {s s' y : Session} {i j n : Nat} {old stage : Stage} {events : List Event}

/-- Each task that is suspended has a call of its own, which has come as far as its stage says. -/
structure Attended (s : Session) : Prop where
  fits : ∀ {i : Nat} {stage : Stage}, s.stage? i = some stage → stage.Fits s.options s.bench
  apart : ∀ {i j n : Nat} {stage stage' : Stage}, s.stage? i = some stage →
    s.stage? j = some stage' → stageCall? stage = some n → stageCall? stage' = some n → i = j

/-- A task that is resumed takes a turn, unless it has ended or was never started. -/
theorem turned_resume (h : Attended s) (i : Nat) :
    (∃ old, s.stage? i = some old ∧ Turned s i old (s.resume i)) ∨ s.resume i = s := by
  cases hs : s.stage? i with
  | none =>
    have hnone : s.tasks[i]? = none := Option.map_eq_none_iff.1 hs
    exact .inr (by simp only [resume, hnone])
  | some old =>
    rw [resume_eq hs]
    exact (turned_resumeFrom hs (h.fits hs)).imp_left fun hturned => ⟨old, rfl, hturned⟩

theorem stage?_turned {s' : Session} (h : Turned s i old s') (hij : i ≠ j) :
    s'.stage? j = s.stage? j := by
  cases h with
  | intro hworked =>
    rw [stage?_setStage, if_neg hij, stage?, hworked.tasks]
    rfl

/-- The call of a task is no other task's, neither its old one nor one that it makes. -/
theorem Attended.not_owns (h : Attended s) (hij : i ≠ j) (hj : s.stage? j = some stage)
    (hn : stageCall? stage = some n) : ¬ s.Owns i n := by
  rintro (hle | ⟨stage', hi, hn'⟩)
  · exact absurd ((h.fits hj).isSome hn) (Nat.not_lt_of_le hle)
  · exact hij (h.apart hi hj hn' hn)

/-- What one turn preserves: each suspended task has a call of its own. -/
theorem attended_turned {s' : Session} (h : Attended s) (hs : s.stage? i = some old)
    (hturned : Turned s i old s') : Attended s' := by
  have hothers {j : Nat} (hij : i ≠ j) : s'.stage? j = s.stage? j := stage?_turned hturned hij
  cases hturned with
  | @intro y new hworked hfits hown hnext =>
    have hnew := hworked.stage?_setStage hs new
    constructor
    · intro j stage hj
      change stage.Fits y.options y.bench
      rw [hworked.options]
      -- The stage that has just been set fits as the turn says; calls of the others were not
      -- touched.
      by_cases hij : i = j
      · subst hij
        cases hnew.symm.trans hj
        exact hfits
      · rw [hothers hij] at hj
        exact (h.fits hj).congr fun n hn => hworked.deeds.calls_eq (h.not_owns hij hj hn)
    · intro j k n stage stage' hj hk hn hn'
      by_cases hij : i = j
      · -- Two tasks with one call: neither of them can be the one that took the turn.
        by_cases hik : i = k
        · exact hij.symm.trans hik
        · subst hij
          cases hnew.symm.trans hj
          rw [hothers hik] at hk
          exact absurd (hown n hn) (h.not_owns hik hk hn')
      · rw [hothers hij] at hj
        by_cases hik : i = k
        · subst hik
          cases hnew.symm.trans hk
          exact absurd (hown n hn') (h.not_owns hij hj hn)
        · rw [hothers hik] at hk
          exact h.apart hj hk hn hn'

/-- The event puts no record into the cache by itself. -/
def Event.putsNothing : Event → Bool
  | .edit m => m.isEdit && m.put?.isNone
  | _ => true

theorem stage?_startTask {name : String} {job : Job}
    (hj : (s.startTask name job).stage? j = some stage) :
    s.stage? j = some stage ∨ j = s.tasks.length ∧ stage = .fresh job := by
  obtain ⟨t, ht, rfl⟩ := Option.map_eq_some_iff.1 hj
  unfold startTask at ht
  rcases Nat.lt_or_ge j s.tasks.length with hlt | hge
  · rw [List.getElem?_append_left hlt] at ht
    exact .inl (by rw [stage?, ht]; rfl)
  · rw [List.getElem?_append_right hge, List.getElem?_singleton] at ht
    split at ht
    · cases ht
      exact .inr ⟨by omega, rfl⟩
    · cases ht

/-- What leaves tasks and calls alone leaves each task with its call. -/
theorem attended_of_eq {s' : Session} (h : Attended s) (htasks : s'.tasks = s.tasks)
    (hoptions : s'.options = s.options) (hcalls : s'.bench.calls = s.bench.calls) :
    Attended s' := by
  have hstage (j : Nat) : s'.stage? j = s.stage? j := by rw [stage?, htasks]; rfl
  constructor
  · intro j stage hj
    rw [hoptions]
    exact (h.fits (hstage j ▸ hj)).congr fun n _ => by rw [hcalls]
  · intro j k n stage stage' hj hk
    exact h.apart (hstage j ▸ hj) (hstage k ▸ hk)

/-- What one event preserves. -/
theorem attended_apply (h : Attended s) {e : Event} (he : e.putsNothing) :
    Attended (s.apply e) := by
  cases e with
  | start name job =>
    constructor
    · intro j stage hj
      rcases stage?_startTask hj with hold | ⟨_, rfl⟩
      · exact h.fits hold
      · trivial
    · -- A fresh task has no call.
      intro j k n stage stage' hj hk hn hn'
      rcases stage?_startTask hj with hj | ⟨_, rfl⟩
      · rcases stage?_startTask hk with hk | ⟨_, rfl⟩
        · exact h.apart hj hk hn hn'
        · cases hn'
      · cases hn
  | resume i =>
    change Attended (s.resume i)
    rcases turned_resume h i with ⟨old, hs, hturned⟩ | hsame
    · exact attended_turned h hs hturned
    · rwa [hsame]
  | cancel i =>
    change Attended (s.cancel i)
    rcases cancelled_cancel s i with ⟨old, y, hs, hworked, _, hcancel⟩ | hsame
    · rw [hcancel]
      have hturned : Turned s i old (y.setStage i .cancelled) :=
        .intro hworked trivial nofun .cancelled
      exact attended_turned h hs hturned
    · rwa [hsame]
  | disk d => exact attended_of_eq h rfl rfl rfl
  | lineUp results => exact attended_of_eq h rfl rfl rfl
  | deliver number result => exact attended_of_eq h rfl rfl rfl
  | resolve id importer target =>
    obtain ⟨resolver, journal, happly⟩ := apply_resolve s id importer target
    rw [happly]
    exact attended_of_eq h rfl rfl rfl
  | buildEnd => exact attended_of_eq h rfl rfl rfl
  | close => exact attended_of_eq h rfl rfl rfl
  | edit m =>
    simp only [Event.putsNothing, Bool.and_eq_true] at he
    refine attended_of_eq h rfl rfl ?_
    change (s.bench.apply m).calls = s.bench.calls
    rw [apply_of_isEdit he.1]

theorem attended_run (h : Attended s) {events : List Event} (he : ∀ e ∈ events, e.putsNothing) :
    Attended (s.run events) := by
  induction events generalizing s with
  | nil => exact h
  | cons e events ih =>
    rw [List.forall_mem_cons] at he
    exact ih (attended_apply h he.1) he.2

theorem attended_start (htasks : s.tasks = []) : Attended s := by
  have hnone (j : Nat) : s.stage? j = none := by simp [stage?, htasks]
  constructor
  · intro j stage hj
    rw [hnone] at hj
    cases hj
  · intro j k n stage stage' hj
    rw [hnone] at hj
    cases hj

/-! ## What events leave alone -/

theorem deeds_turned (h : Turned s i old s') : s.Deeds s'.compiler i s'.bench := by
  cases h with
  | intro hworked => exact hworked.deeds

/-- A task that is there after an event was there before, or the event has started it. -/
theorem stage?_of_apply {e : Event} (h : Attended s) (hs : (s.apply e).stage? i = some stage) :
    (s.stage? i).isSome ∨ ∃ name job, e = .start name job ∧ stage = .fresh job := by
  cases e with
  | start name job =>
    exact (stage?_startTask hs).imp Option.isSome_of_eq_some fun hnew => ⟨name, job, rfl, hnew.2⟩
  | resume j =>
    left
    change (s.resume j).stage? i = some stage at hs
    rcases turned_resume h j with ⟨old, hold, hturned⟩ | hsame
    · by_cases hji : j = i
      · subst hji
        exact Option.isSome_of_eq_some hold
      · rw [stage?_turned hturned hji] at hs
        exact Option.isSome_of_eq_some hs
    · rw [hsame] at hs
      exact Option.isSome_of_eq_some hs
  | cancel j =>
    left
    change (s.cancel j).stage? i = some stage at hs
    rcases cancelled_cancel s j with ⟨old, y, hold, hworked, _, hcancel⟩ | hsame
    · by_cases hji : j = i
      · subst hji
        exact Option.isSome_of_eq_some hold
      · rw [hcancel, stage?_setStage, if_neg hji, Session.stage?, hworked.tasks] at hs
        exact Option.isSome_of_eq_some hs
    · rw [hsame] at hs
      exact Option.isSome_of_eq_some hs
  | resolve id importer target =>
    obtain ⟨resolver, journal, happly⟩ := apply_resolve s id importer target
    rw [happly] at hs
    exact .inl (Option.isSome_of_eq_some hs)
  | _ => exact .inl (Option.isSome_of_eq_some hs)

theorem options_turned (h : Turned s i old s') : s'.options = s.options := by
  cases h with
  | intro hworked => exact hworked.options

/-- Options are never changed. -/
theorem options_apply (h : Attended s) (e : Event) : (s.apply e).options = s.options := by
  cases e with
  | resume i =>
    rcases turned_resume h i with ⟨old, _, hturned⟩ | hsame
    · exact options_turned hturned
    · exact congrArg Session.options hsame
  | cancel i =>
    rcases cancelled_cancel s i with ⟨old, y, _, hworked, _, hcancel⟩ | hsame
    · exact (congrArg Session.options hcancel).trans hworked.options
    · exact congrArg Session.options hsame
  | resolve id importer target =>
    obtain ⟨resolver, journal, happly⟩ := apply_resolve s id importer target
    rw [happly]
  | _ => rfl

theorem options_run (h : Attended s) (he : ∀ e ∈ events, e.putsNothing) :
    (s.run events).options = s.options := by
  induction events generalizing s with
  | nil => rfl
  | cons e events ih =>
    rw [List.forall_mem_cons] at he
    exact (ih (attended_apply h he.1) he.2).trans (options_apply h e)

theorem sound_events (hbench : s.bench = {}) (events : List Event) :
    Sound (s.run events).bench := by
  obtain ⟨moves, hrun⟩ := bench_run s events
  rw [hrun, hbench]
  exact sound_after moves

/-- The call of a task stays as it is in an event that is not for the task. -/
theorem calls_apply_of_stageCall? {e : Event} (h : Attended s) (he : e.putsNothing)
    (hs : s.stage? i = some stage) (hn : stageCall? stage = some n) (hne : e.actor? ≠ some i) :
    (s.apply e).bench.calls[n]? = s.bench.calls[n]? := by
  -- Whoever takes a turn does not own the call, since it is the other task's.
  have hnot {j : Nat} (hj : e.actor? = some j) : ¬ s.Owns j n := by
    refine h.not_owns (fun hji => hne ?_) hs hn
    rw [hj, hji]
  cases e with
  | resume j =>
    change (s.resume j).bench.calls[n]? = _
    rcases turned_resume h j with ⟨old, _, hturned⟩ | hsame
    · exact (deeds_turned hturned).calls_eq (hnot rfl)
    · rw [hsame]
  | cancel j =>
    change (s.cancel j).bench.calls[n]? = _
    rcases cancelled_cancel s j with ⟨old, y, _, hworked, _, hcancel⟩ | hsame
    · rw [hcancel]
      exact hworked.deeds.calls_eq (hnot rfl)
    · rw [hsame]
  | resolve id importer target =>
    obtain ⟨resolver, journal, happly⟩ := apply_resolve s id importer target
    rw [happly]
  | edit m =>
    simp only [Event.putsNothing, Bool.and_eq_true] at he
    change (s.bench.apply m).calls[n]? = _
    rw [apply_of_isEdit he.1]
  | _ => rfl

/-! ## Where records come from -/

/-- The move brings neither a record nor the outcome of a compute. -/
def bringsNothing : Move → Bool
  | .finish _ _ => false
  | .replace _ => false
  | _ => true

/-- What holds of the workbench behind an event: what held of it before and is kept by the moves
that bring nothing and by the deeds of a task that is resumed. -/
theorem holds_apply {J : Workbench → Prop} {e : Event} (h : Attended s) (he : e.putsNothing)
    (hstart : J s.bench)
    (hquiet : ∀ {w : Workbench} {m : Move}, bringsNothing m → J w → J (w.apply m))
    (hdeed : ∀ {j : Nat} {w : Workbench} {m : Move}, e = .resume j →
      s.Deeds (s.resume j).compiler j w → s.Deed (s.resume j).compiler j w m → J w →
      J (w.apply m)) : J (s.apply e).bench := by
  cases e with
  | resume i =>
    rcases turned_resume h i with ⟨old, _, hturned⟩ | hsame
    · change J (s.resume i).bench
      have hdeeds := deeds_turned hturned
      generalize (s.resume i).bench = w at hdeeds ⊢
      -- A turn is a chain of deeds, and each of them keeps the property.
      induction hdeeds with
      | start => exact hstart
      | next hbefore hm ih => exact hdeed rfl hbefore hm ih
    · change J (s.resume i).bench
      rwa [hsame]
  | cancel i =>
    change J (s.cancel i).bench
    rcases cancelled_cancel s i with ⟨old, y, _, _, hbench, hcancel⟩ | hsame
    · rw [hcancel]
      change J y.bench
      -- Giving up is no deed at all, or the end of one call.
      rcases hbench with hbench | ⟨n, hbench⟩
      · rwa [hbench]
      · rw [hbench]
        exact hquiet rfl hstart
    · rwa [hsame]
  | resolve id importer target =>
    obtain ⟨resolver, journal, happly⟩ := apply_resolve s id importer target
    rw [happly]
    exact hstart
  | close => exact hquiet (m := .clear) rfl hstart
  | edit m =>
    refine hquiet ?_ hstart
    cases m <;> first | rfl | cases he
  | _ => exact hstart

/-- In its next turn the task ends a compile. -/
def EndsCompile (s : Session) (i : Nat) (input : CompileInput) (result : CompileResult) : Prop :=
  s.CompileEnds (s.resume i).compiler i input result

/-- In a run of events, some task ends a compile for a slot, and the record is that of its
output. -/
def Produced (start : Session) (events : List Event) (slot : Slot) (record : Record) : Prop :=
  ∃ (ran rest : List Event) (j : Nat) (input : CompileInput) (output : CompileOutput),
    events = ran ++ .resume j :: rest ∧ (start.run ran).EndsCompile j input (.ok output) ∧
      (input.file.components, input.target) = slot ∧
      record = start.options.toRecord input output

theorem Produced.append {start : Session} {slot : Slot} {record : Record}
    (h : Produced start events slot record) (more : List Event) :
    Produced start (events ++ more) slot record := by
  obtain ⟨ran, rest, j, input, output, rfl, hends, hslot, hrecord⟩ := h
  refine ⟨ran, rest ++ more, j, input, output, ?_, hends, hslot, hrecord⟩
  rw [List.append_assoc, List.cons_append]

theorem filled_deed {P : Slot → Record → Prop} {after : Compiler} {w : Workbench} {m : Move}
    (hw : Sound w) (h : Filled P w) (hm : s.Deed after i w m)
    (hP : ∀ {input : CompileInput} {output : CompileOutput},
      s.CompileEnds after i input (.ok output) →
      P (input.file.components, input.target) (s.options.toRecord input output)) :
    Filled P (w.apply m) := by
  refine filled_apply hw h ?_ ?_
  · intro j t leader d record hmove hleader hleads
    -- The one deed that stores a record is the end of a compile.
    cases hm with
    | @compiled n t' intent d' input result hown halone hends hcall =>
      obtain ⟨rfl, houtcome⟩ := Move.finish.inj hmove
      cases hcall.symm.trans hleader
      cases result with
      | ok output =>
        cases houtcome
        exact hP hends
      | error failure => cases houtcome
    | unread => cases hmove
    | _ => cases hmove
  · rintro record rfl
    cases hm

/-- Each record in the cache was produced in the run, for the slot that it is in. -/
theorem filled_run (hbench : s.bench = {}) (htasks : s.tasks = [])
    (he : ∀ e ∈ events, e.putsNothing) :
    Filled (Produced s events) (s.run events).bench := by
  induction events using List.reverseRecOn with
  | nil =>
    change Filled _ s.bench
    rw [hbench]
    exact filled_empty _
  | append_singleton events e ih =>
    rw [List.forall_mem_append, List.forall_mem_singleton] at he
    have hattended := attended_run (attended_start htasks) he.1
    have hfilled : Filled (Produced s (events ++ [e])) (s.run events).bench :=
      (ih he.1).mono fun h => h.append [e]
    rw [run_append]
    refine (holds_apply (J := fun w => Sound w ∧ Filled (Produced s (events ++ [e])) w) hattended
      he.2 ⟨sound_events hbench events, hfilled⟩ ?_ ?_).2
    · -- Moves that bring nothing store nothing.
      intro w m hm hJ
      refine ⟨sound_step hJ.1 (step_apply w m), filled_apply hJ.1 hJ.2 ?_ ?_⟩
      · rintro j t leader d record rfl
        cases hm
      · rintro record rfl
        cases hm
    · rintro j w m rfl hdeeds hm hJ
      -- What the last turn stores was compiled in it.
      refine ⟨sound_step hJ.1 (step_apply w m), filled_deed hJ.1 hJ.2 hm fun hends => ?_⟩
      refine ⟨events, [], j, _, _, rfl, hends, rfl, ?_⟩
      rw [options_run (attended_start htasks) he.1]

end Session

end HotComponents
