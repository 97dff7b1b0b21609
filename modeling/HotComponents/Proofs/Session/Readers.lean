import HotComponents.Proofs.Session.SharedCompile
import Mathlib.Algebra.Order.BigOperators.Group.Finset

/-!
# One compile for many readers

In a new session let any number of tasks be started that transform one text of a component, and
tasks that load the stylesheet of it, and let nothing be given up. The text is compiled once, by the
first transform that takes a turn; the transforms and all later loads are served from its record,
and earlier loads have come too early. Nobody is left waiting.

* `readings_run`: what holds at every point of a run;
* `ended_of_underWay`, `turnsAhead_resume`: nobody is stuck, and turns come to an end;
* `one_compile_serves_all_readers`: what is compiled, and what each task ends in.
-/

namespace HotComponents

open ModuleId

namespace Session

open Workbench

variable {a : SharedText} {s start : Session} {i j : Nat} {job : Job} {old stage : Stage}
  {events first : List Event} {e : Event}

/-! ## First turns -/

/-- In a run of events, the task with a number takes its first turn behind some of them, and was
started for a job. -/
def FirstTurn (start : Session) (events : List Event) (i : Nat) (job : Job) (first : List Event) :
    Prop :=
  (∃ later, events = first ++ .resume i :: later) ∧
    (start.run first).stage? i = some (.fresh job)

/-- In a run of events, some transform takes its first turn. -/
def BeginsTransform (start : Session) (events : List Event) : Prop :=
  ∃ i id code target first, start.FirstTurn events i (.transform id code target) first

theorem run_concat (s : Session) (events : List Event) (e : Event) :
    s.run (events ++ [e]) = (s.run events).apply e := run_append s events [e]

theorem FirstTurn.append (h : start.FirstTurn events i job first) (more : List Event) :
    start.FirstTurn (events ++ more) i job first := by
  obtain ⟨⟨later, rfl⟩, hfresh⟩ := h
  refine ⟨⟨later ++ more, ?_⟩, hfresh⟩
  rw [List.append_assoc, List.cons_append]

theorem BeginsTransform.append (h : start.BeginsTransform events) (more : List Event) :
    start.BeginsTransform (events ++ more) := by
  obtain ⟨i, id, code, target, first, hfirst⟩ := h
  exact ⟨i, id, code, target, first, hfirst.append more⟩

/-- A first turn is one of the events before the last, or the last one. -/
theorem firstTurn_concat (h : start.FirstTurn (events ++ [e]) i job first) :
    start.FirstTurn events i job first ∨
      e = .resume i ∧ first = events ∧ (start.run events).stage? i = some (.fresh job) := by
  obtain ⟨⟨later, hevents⟩, hfresh⟩ := h
  rcases List.eq_nil_or_concat later with rfl | ⟨later, last, rfl⟩
  · obtain ⟨rfl, hlast⟩ := List.append_inj' hevents rfl
    exact .inr ⟨List.singleton_inj.1 hlast, rfl, hfresh⟩
  · left
    rw [List.concat_eq_append, ← List.cons_append, ← List.append_assoc] at hevents
    obtain ⟨hevents, _⟩ := List.append_inj' hevents rfl
    exact ⟨⟨later, hevents⟩, hfresh⟩

/-- The first transform has taken its turn before the last event, or takes it there. -/
theorem beginsTransform_concat (h : start.BeginsTransform (events ++ [e])) :
    start.BeginsTransform events ∨ ∃ i id code target, e = .resume i ∧
      (start.run events).stage? i = some (.fresh (.transform id code target)) := by
  obtain ⟨i, id, code, target, first, hfirst⟩ := h
  rcases firstTurn_concat hfirst with hbefore | ⟨he, _, hfresh⟩
  · exact .inl ⟨i, id, code, target, first, hbefore⟩
  · exact .inr ⟨i, id, code, target, he, hfresh⟩

/-- A task takes its first turn, and by then some transform has taken one. -/
def JoinsReaders (start : Session) (events : List Event) (i : Nat) (job : Job) : Prop :=
  ∃ first, start.FirstTurn events i job first ∧ start.BeginsTransform (first ++ [.resume i])

/-- Whoever joins in a run of events joins in the last one, or had joined before. -/
theorem joinsReaders_concat (h : start.JoinsReaders (events ++ [e]) i job) :
    start.JoinsReaders events i job ∧ start.BeginsTransform events ∨
      e = .resume i ∧ (start.run events).stage? i = some (.fresh job) := by
  obtain ⟨first, hfirst, hbegins⟩ := h
  rcases firstTurn_concat hfirst with hbefore | ⟨he, _, hfresh⟩
  · refine .inl ⟨⟨first, hbefore, hbegins⟩, ?_⟩
    obtain ⟨⟨later, rfl⟩, _⟩ := hbefore
    have hmore := hbegins.append later
    rwa [List.append_assoc] at hmore
  · exact .inr ⟨he, hfresh⟩

/-! ## Runs -/

/-- The compile is shared, and whoever has joined is served from its record. -/
def ServesJoined (a : SharedText) (start : Session) (events : List Event) : Prop :=
  ∃ file output t, file.components = a.key.file.components ∧
    a.compile (a.input file) = .ok output ∧
    let record := a.options.toRecord (a.input file) output
    Sharing a file record t (start.run events) ∧
      ∀ i job, start.JoinsReaders events i job →
        ∃ stage, (start.run events).stage? i = some stage ∧ Reads a file record job stage

/-- What one event preserves while the text has not been compiled, or makes of it. -/
theorem readings_unread (h : Unread a (start.run events)) (hnone : ¬ start.BeginsTransform events)
    (hcompiles : a.Compiles) (he : a.Allows e) :
    (¬ start.BeginsTransform (events ++ [e]) ∧ Unread a (start.run (events ++ [e]))) ∨
      (start.BeginsTransform (events ++ [e]) ∧ ServesJoined a start (events ++ [e])) := by
  have hlast {i : Nat} {job : Job} (hjoins : start.JoinsReaders (events ++ [e]) i job) :
      e = .resume i ∧ (start.run events).stage? i = some (.fresh job) := by
    rcases joinsReaders_concat hjoins with ⟨_, hbegins⟩ | hlast
    · exact absurd hbegins hnone
    · exact hlast
  -- Unless the event is the first turn of a transform, the text is still unread.
  have hstill (hunread : Unread a (start.run (events ++ [e])))
      (hother : ∀ i id code target, e = .resume i →
        (start.run events).stage? i ≠ some (.fresh (.transform id code target))) :
      (¬ start.BeginsTransform (events ++ [e]) ∧ Unread a (start.run (events ++ [e]))) ∨
        (start.BeginsTransform (events ++ [e]) ∧ ServesJoined a start (events ++ [e])) := by
    refine .inl ⟨fun hbegins => ?_, hunread⟩
    rcases beginsTransform_concat hbegins with hbefore | ⟨i, id, code, target, hresume, hfresh⟩
    · exact hnone hbefore
    · exact hother i id code target hresume hfresh
  by_cases hquiet : ∀ i, e ≠ .resume i
  · refine hstill ?_ fun i id code target hresume => absurd hresume (hquiet i)
    rw [run_concat]
    exact unread_quiet h he hquiet
  obtain ⟨i, rfl⟩ := not_forall_not.1 hquiet
  have hidle (hsame : (start.run events).resume i = start.run events)
      (hfresh : ∀ job, (start.run events).stage? i ≠ some (.fresh job)) :
      (¬ start.BeginsTransform (events ++ [.resume i]) ∧
          Unread a (start.run (events ++ [.resume i]))) ∨
        (start.BeginsTransform (events ++ [.resume i]) ∧
          ServesJoined a start (events ++ [.resume i])) := by
    refine hstill ?_ fun j id code target hresume => ?_
    · rw [run_concat]
      exact (congrArg (Unread a) hsame).mpr h
    · cases hresume
      exact hfresh _
  cases hs : (start.run events).stage? i with
  | none =>
    have hgone : (start.run events).tasks[i]? = none := Option.map_eq_none_iff.1 hs
    refine hidle (by simp only [resume, hgone]) fun job hfresh => ?_
    cases hs.symm.trans hfresh
  | some stage =>
    rcases h.stages hs with hended | ⟨job, hwants, rfl⟩
    · refine hidle (resume_of_hasEnded hs hended) fun job hfresh => ?_
      cases hs.symm.trans hfresh
      cases hended
    cases hwants with
    | load hparse hstyle hslot =>
      refine hstill ?_ fun j id code target hresume hfresh => ?_
      · rw [run_concat]
        exact (unread_load h hs hparse hstyle hslot).2
      · cases hresume
        cases hs.symm.trans hfresh
    | @transform id r hparse hmain hslot =>
      obtain ⟨output, houtput, hgoes, hsharing⟩ :=
        unread_transform h hcompiles hs hparse hmain hslot
      refine .inr ⟨⟨i, id, _, _, events, ⟨⟨[], rfl⟩, hs⟩⟩, r.file, output,
        (start.run events).bench.cache.nextTicket, congrArg Prod.fst hslot, houtput, ?_, ?_⟩
      · rw [run_concat]
        exact hsharing
      · intro j job hjoins
        obtain ⟨hj, hfresh⟩ := hlast hjoins
        cases hj
        cases hs.symm.trans hfresh
        obtain ⟨new, hnew, hreads, _⟩ := hgoes
        rw [run_concat]
        exact ⟨new, hnew, hreads⟩

/-- What one event preserves while the compile is shared. -/
theorem readings_sharing (h : ServesJoined a start events) (he : a.Allows e) :
    ServesJoined a start (events ++ [e]) := by
  obtain ⟨file, output, t, hfile, houtput, h, hjoined⟩ := h
  refine ⟨file, output, t, hfile, houtput, ?_⟩
  intro record
  rw [run_concat]
  -- Whoever joins by this event was fresh before it, and had a job that is allowed.
  have hjoining {i : Nat} {job : Job} (hjoins : start.JoinsReaders (events ++ [e]) i job) :
      ∃ stage, (start.run events).stage? i = some stage ∧ Reads a file record job stage := by
    rcases joinsReaders_concat hjoins with ⟨hbefore, _⟩ | ⟨_, hfresh⟩
    · exact hjoined _ _ hbefore
    · refine ⟨_, hfresh, ?_⟩
      rcases h.stages hfresh with hended | ⟨job', hreads⟩
      · cases hended
      · cases hreads with
        | fresh hwants => exact .fresh hwants
  -- A turn is one of a task that reads, of one that has ended, or of none.
  by_cases hquiet : ∀ i, e ≠ .resume i
  · refine ⟨sharing_quiet h he hquiet, fun i job hjoins => ?_⟩
    obtain ⟨stage, hs, hreads⟩ := hjoining hjoins
    obtain ⟨_, _, _, hstays, _⟩ := quiet_apply h.obeys he hquiet
    exact ⟨stage, hstays hs, hreads⟩
  obtain ⟨i, rfl⟩ := not_forall_not.1 hquiet
  have hsharing : Sharing a file record t ((start.run events).resume i) := by
    cases hs : (start.run events).stage? i with
    | none =>
      have hgone : (start.run events).tasks[i]? = none := Option.map_eq_none_iff.1 hs
      simpa only [resume, hgone] using h
    | some stage =>
      rcases h.stages hs with hended | ⟨job, hreads⟩
      · exact (resume_of_hasEnded hs hended).symm ▸ h
      · exact (sharing_resume h hs hreads).2
  refine ⟨hsharing, fun j job hjoins => ?_⟩
  obtain ⟨stage, hs, hreads⟩ := hjoining hjoins
  by_cases hij : i = j
  · subst hij
    obtain ⟨⟨new, hnew, hreads', _⟩, _⟩ := sharing_resume h hs hreads
    exact ⟨new, hnew, hreads'⟩
  · exact ⟨stage, stage?_apply_of_ne hs (fun hactor => hij (Option.some.inj hactor)), hreads⟩

/-- At every point of a run the text is unread, and no transform has taken a turn; or the compile is
shared, and whoever has joined is served from it. -/
theorem readings_run (hstart : Unread a start) (hcompiles : a.Compiles)
    (he : ∀ e ∈ events, a.Allows e) :
    (¬ start.BeginsTransform events ∧ Unread a (start.run events)) ∨
      (start.BeginsTransform events ∧ ServesJoined a start events) := by
  induction events using List.reverseRecOn with
  | nil =>
    refine .inl ⟨?_, hstart⟩
    rintro ⟨i, id, code, target, first, ⟨later, hevents⟩, _⟩
    simp at hevents
  | append_singleton events e ih =>
    rw [List.forall_mem_append, List.forall_mem_singleton] at he
    rcases ih he.1 with ⟨hnone, hunread⟩ | ⟨hbegins, hserves⟩
    · exact readings_unread hunread hnone hcompiles he.2
    · exact .inr ⟨hbegins.append [e], readings_sharing hserves he.2⟩

/-! ## Whoever was started -/

/-- A task that has not run yet takes its first turn in an event or still has not run. -/
theorem firstTurn_of_fresh (hfresh : (start.run events).stage? i = some (.fresh job))
    (he : a.Allows e) :
    start.FirstTurn (events ++ [e]) i job events ∨
      (start.run (events ++ [e])).stage? i = some (.fresh job) := by
  by_cases hi : e.actor? = some i
  · cases e with
    | resume j =>
      cases hi
      exact .inl ⟨⟨[], rfl⟩, hfresh⟩
    | cancel j => exact absurd he id
    | _ => cases hi
  · rw [run_concat]
    exact .inr (stage?_apply_of_ne hfresh hi)

/-- A task that is there has taken a first turn or has not run yet. -/
theorem firstTurn_or_fresh (htasks : start.tasks = []) (he : ∀ e ∈ events, a.Allows e)
    (hs : (start.run events).stage? i = some stage) :
    ∃ job, a.Wants job ∧ ((∃ first, start.FirstTurn events i job first) ∨ stage = .fresh job) := by
  induction events using List.reverseRecOn generalizing stage with
  | nil =>
    change start.stage? i = some stage at hs
    rw [stage?, htasks] at hs
    cases hs
  | append_singleton events e ih =>
    rw [List.forall_mem_append, List.forall_mem_singleton] at he
    have hattended := attended_run (attended_start htasks) fun e hmem =>
      Event.putsNothing_of_isInside (he.1 e hmem).isInside
    rw [run_concat] at hs
    rcases stage?_of_apply hattended hs with hthere | ⟨name, job, rfl, rfl⟩
    · -- A task that was there has had its first turn, has it now, or has still to take it.
      obtain ⟨old, hold⟩ := Option.isSome_iff_exists.1 hthere
      obtain ⟨job, hwants, ⟨first, hfirst⟩ | rfl⟩ := ih he.1 hold
      · exact ⟨job, hwants, .inl ⟨first, hfirst.append [e]⟩⟩
      · refine ⟨job, hwants, ?_⟩
        rcases firstTurn_of_fresh hold he.2 with hfirst | hfresh
        · exact .inl ⟨events, hfirst⟩
        · rw [run_concat, hs] at hfresh
          exact .inr (Option.some.inj hfresh)
    · exact ⟨job, he.2, .inr rfl⟩

/-- Of each start there is a task, which has taken a first turn or has not run yet. -/
theorem firstTurn_or_fresh_of_start {name : String} (he : ∀ e ∈ events, a.Allows e)
    (hstarted : .start name job ∈ events) :
    ∃ i, (∃ first, start.FirstTurn events i job first) ∨
      (start.run events).stage? i = some (.fresh job) := by
  induction events using List.reverseRecOn with
  | nil => cases hstarted
  | append_singleton events e ih =>
    rw [List.forall_mem_append, List.forall_mem_singleton] at he
    rw [List.mem_append, List.mem_singleton] at hstarted
    rcases hstarted with hbefore | rfl
    · obtain ⟨i, ⟨first, hfirst⟩ | hfresh⟩ := ih he.1 hbefore
      · exact ⟨i, .inl ⟨first, hfirst.append [e]⟩⟩
      · exact ⟨i, (firstTurn_of_fresh hfresh he.2).imp_left fun hfirst => ⟨events, hfirst⟩⟩
    · -- The task has only just been started.
      refine ⟨(start.run events).tasks.length, .inr ?_⟩
      rw [run_concat]
      exact stage?_startTask_new _ name job

/-- A load that takes its first turn before any transform does has come too early. -/
theorem too_early_of_firstTurn {sid : String} (hstart : Unread a start) (hcompiles : a.Compiles)
    (he : ∀ e ∈ events, a.Allows e)
    (hfirst : start.FirstTurn events i (.load sid a.key.target) first)
    (hnone : ¬ start.BeginsTransform first) :
    ∃ q, parse a.options sid a.key.target = some q ∧
      (start.run events).stage? i = some (.done (.refused (.styleTooEarly q.file))) := by
  obtain ⟨⟨later, rfl⟩, hfresh⟩ := hfirst
  rw [List.forall_mem_append, List.forall_mem_cons] at he
  rcases readings_run hstart hcompiles he.1 with ⟨_, hunread⟩ | ⟨hbegins, _⟩
  · -- Nothing has been compiled before the first turn, so the turn ends the task.
    rcases hunread.stages hfresh with hended | ⟨job, hwants, hjob⟩
    · cases hended
    cases hjob
    cases hwants with
    | @load sid q hparse hstyle hslot =>
      obtain ⟨⟨new, hnew, rfl, _⟩, _⟩ := unread_load hunread hfresh hparse hstyle hslot
      refine ⟨q, hparse, ?_⟩
      rw [run_append]
      exact ended_run hnew rfl _
  · exact absurd hbegins hnone

/-! ## Nobody is stuck, and turns come to an end -/

/-- The text is unread, or its compile is shared. -/
def UnderWay (a : SharedText) (s : Session) : Prop :=
  Unread a s ∨ ∃ file record t, Sharing a file record t s

/-- In a sequence of turns, each task that takes one could go on. -/
inductive TakesTurns : Session → List Nat → Prop where
  | nil {s : Session} : TakesTurns s []
  | cons {s : Session} {i : Nat} {turns : List Nat} (hready : i ∈ s.runnable)
      (h : TakesTurns (s.resume i) turns) : TakesTurns s (i :: turns)

/-- The turns that the tasks can still take. -/
def turnsAhead (pauses : Nat) (s : Session) : Nat :=
  ∑ i ∈ Finset.range s.tasks.length, (s.stage? i).elim 0 (turnsLeft pauses)

theorem mem_runnable : i ∈ s.runnable ↔ ∃ stage, s.stage? i = some stage ∧ s.isReady stage := by
  simp only [runnable, List.mem_map, List.mem_filter, Prod.exists, exists_eq_right, stage?,
    List.mem_zipIdx_iff_getElem?, Option.map_eq_some_iff]
  constructor
  · rintro ⟨task, htask, hready⟩
    exact ⟨task.stage, ⟨task, htask, rfl⟩, hready⟩
  · rintro ⟨_, ⟨task, htask, rfl⟩, hready⟩
    exact ⟨task, htask, hready⟩

theorem UnderWay.attended (h : UnderWay a s) : Attended s := by
  rcases h with h | ⟨file, record, t, h⟩
  · exact h.attended
  · exact h.attended

/-- A turn of a task that could go on leaves it fewer turns. -/
theorem underWay_resume (h : UnderWay a s) (hcompiles : a.Compiles) (hs : s.stage? i = some old)
    (hready : s.isReady old) :
    UnderWay a (s.resume i) ∧ ∃ new, (s.resume i).stage? i = some new ∧
      turnsLeft a.pauses new < turnsLeft a.pauses old := by
  have hfewer {P : Stage → Prop} (hgoes : s.GoesOn i old a.pauses P) :
      ∃ new, (s.resume i).stage? i = some new ∧
        turnsLeft a.pauses new < turnsLeft a.pauses old := by
    obtain ⟨new, hnew, _, hfewer⟩ := hgoes
    exact ⟨new, hnew, hfewer hready⟩
  -- A task that can go on has not ended.
  have hopen : ¬ old.hasEnded := by
    intro hended
    cases old with
    | done result => cases hready
    | cancelled => cases hready
    | _ => cases hended
  rcases h with h | ⟨file, record, t, h⟩
  · rcases h.stages hs with hended | ⟨job, hwants, rfl⟩
    · exact absurd hended hopen
    · cases hwants with
      | load hparse hstyle hslot =>
        obtain ⟨hgoes, hunread⟩ := unread_load h hs hparse hstyle hslot
        exact ⟨.inl hunread, hfewer hgoes⟩
      | transform hparse hmain hslot =>
        obtain ⟨output, _, hgoes, hsharing⟩ := unread_transform h hcompiles hs hparse hmain hslot
        exact ⟨.inr ⟨_, _, _, hsharing⟩, hfewer hgoes⟩
  · rcases h.stages hs with hended | ⟨job, hreads⟩
    · exact absurd hended hopen
    · obtain ⟨hgoes, hsharing⟩ := sharing_resume h hs hreads
      exact ⟨.inr ⟨file, record, t, hsharing⟩, hfewer hgoes⟩

theorem length_tasks_resume (h : Attended s) (i : Nat) :
    (s.resume i).tasks.length = s.tasks.length := by
  rcases turned_resume h i with ⟨old, _, hturned⟩ | hsame
  · generalize s.resume i = s' at hturned
    cases hturned with
    | intro hworked =>
      rw [setStage, List.length_modify, hworked.tasks]
  · rw [hsame]

/-- A turn of a task that can go on lowers the number of turns ahead. -/
theorem turnsAhead_resume (h : UnderWay a s) (hcompiles : a.Compiles) (hready : i ∈ s.runnable) :
    turnsAhead a.pauses (s.resume i) < turnsAhead a.pauses s := by
  obtain ⟨old, hs, hready⟩ := mem_runnable.1 hready
  obtain ⟨_, new, hnew, hfewer⟩ := underWay_resume h hcompiles hs hready
  rw [turnsAhead, length_tasks_resume h.attended, turnsAhead]
  obtain ⟨task, htask, _⟩ := Option.map_eq_some_iff.1 hs
  -- The sum goes down at the one task and stays at all others.
  refine Finset.sum_lt_sum ?_ ⟨i, ?_, ?_⟩
  · intro j hj
    by_cases hij : i = j
    · subst hij
      rw [hnew, hs]
      exact hfewer.le
    · have hlt : j < s.tasks.length := Finset.mem_range.1 hj
      have hstage : s.stage? j = some s.tasks[j].stage := by
        rw [stage?, List.getElem?_eq_getElem hlt, Option.map_some]
      have hstays : (s.resume i).stage? j = some s.tasks[j].stage :=
        stage?_apply_of_ne (e := .resume i) hstage fun hactor => hij (Option.some.inj hactor)
      rw [hstays, hstage]
  · exact Finset.mem_range.2 (List.getElem?_eq_some_iff.1 htask).1
  · rw [hnew, hs]
    exact hfewer

/-- A task has at most its first turn, one for each pause and one for the end. -/
theorem UnderWay.turnsLeft_le (h : UnderWay a s) (hs : s.stage? i = some stage) :
    turnsLeft a.pauses stage ≤ a.pauses + 2 := by
  have hended (hended : stage.hasEnded) : turnsLeft a.pauses stage ≤ a.pauses + 2 := by
    cases stage with
    | done result => exact Nat.zero_le _
    | cancelled => exact Nat.zero_le _
    | _ => cases hended
  rcases h with h | ⟨file, record, t, h⟩
  · rcases h.stages hs with hdone | ⟨job, _, rfl⟩
    · exact hended hdone
    · exact Nat.le_refl _
  · rcases h.stages hs with hdone | ⟨job, hreads⟩
    · exact hended hdone
    · cases hreads with
      | fresh => exact Nat.le_refl _
      | @serving id r n making hparse hslot hmaking =>
        cases making with
        | none => exact Nat.le_add_left 1 _
        | some c =>
          obtain ⟨_, left, hleft, hle⟩ := hmaking c rfl
          obtain ⟨input, suspension⟩ := c
          cases hleft
          change left + 1 ≤ a.pauses + 2
          omega
      | styling => exact Nat.le_add_left 1 _
      | served => exact Nat.zero_le _
      | styled => exact Nat.zero_le _

theorem UnderWay.turnsAhead_le (h : UnderWay a s) :
    turnsAhead a.pauses s ≤ s.tasks.length * (a.pauses + 2) := by
  have hle := Finset.sum_le_card_nsmul (Finset.range s.tasks.length)
    (fun i => (s.stage? i).elim 0 (turnsLeft a.pauses)) (a.pauses + 2) fun i _ => by
      cases hs : s.stage? i with
      | none => exact Nat.zero_le _
      | some stage => exact h.turnsLeft_le hs
  simpa [turnsAhead] using hle

/-- The tasks take finitely many turns that lead on. -/
theorem length_le_of_takesTurns (h : UnderWay a s) (hcompiles : a.Compiles) {turns : List Nat}
    (hturns : TakesTurns s turns) : turns.length ≤ turnsAhead a.pauses s := by
  induction hturns with
  | nil => exact Nat.zero_le _
  | @cons s i turns hready _ ih =>
    obtain ⟨old, hs, hready'⟩ := mem_runnable.1 hready
    have hlater := ih (underWay_resume h hcompiles hs hready').1
    have hfewer := turnsAhead_resume h hcompiles hready
    rw [List.length_cons]
    omega

/-- When no task can go on, all have ended: a task that waits for the compile is not the last one,
since the task that is suspended on the compile can go on. -/
theorem ended_of_underWay (h : UnderWay a s) (hstill : s.runnable = [])
    (hs : s.stage? i = some stage) : stage.hasEnded := by
  have hblocked {j : Nat} {stage : Stage} (hj : s.stage? j = some stage) :
      s.isReady stage = false := by
    rw [← Bool.not_eq_true]
    intro hready
    have hmem : j ∈ s.runnable := mem_runnable.2 ⟨stage, hj, hready⟩
    rw [hstill] at hmem
    cases hmem
  rcases h with h | ⟨file, record, t, h⟩
  · rcases h.stages hs with hended | ⟨job, _, rfl⟩
    · exact hended
    · cases hblocked hs
  · -- A compile that is shared has a leader, and a leader could go on.
    have hlanded : s.bench.cache.content? a.key ≠ some (.pending t none) := by
      intro hpending
      obtain ⟨j, stage, hj, hc⟩ := h.led hpending
      have hready : s.isReady stage := by
        rcases h.stages hj with hended | ⟨job, hreads⟩
        · cases stage with
          | done result => cases hc
          | cancelled => cases hc
          | _ => cases hended
        · cases hreads with
          | @serving id r n making hparse hslot hmaking =>
            cases making with
            | none => cases hc
            | some c =>
              obtain ⟨_, left, hleft, _⟩ := hmaking c rfl
              simp [isReady, hleft, Compiler.isReady]
          | _ => cases hc
      rw [hblocked hj] at hready
      cases hready
    have hwaits {n u : Nat} {key : Key} {wish : Intent}
        (hcall : s.bench.calls[n]? = some ⟨key, wish, .waiting u⟩) : s.bench.isRunnable n :=
      (h.isRunnable_iff hcall).2 hlanded
    rcases h.stages hs with hended | ⟨job, hreads⟩
    · exact hended
    · have hfits := h.attended.fits hs
      have hnot := hblocked hs
      cases hreads with
      | fresh => cases hnot
      | @serving id r n making hparse hslot hmaking =>
        cases making with
        | none =>
          obtain ⟨u, hcall⟩ := hfits
          exact absurd (hwaits hcall) (by simpa [isReady] using hnot)
        | some c =>
          obtain ⟨_, left, hleft, _⟩ := hmaking c rfl
          simp [isReady, hleft, Compiler.isReady] at hnot
      | styling =>
        obtain ⟨u, hcall⟩ := hfits
        exact absurd (hwaits hcall) (by simpa [isReady] using hnot)
      | served => rfl
      | styled => rfl

/-! ## What becomes of readers -/

/-- One compile serves all readers. In a new session with a compiler that pauses any number of times
and then succeeds with the text, let tasks be started that transform one text of a component, and
tasks that load the stylesheet of it for the same target, and let them take turns in any order.

If some transform has taken a turn, the text has been given to the compiler exactly once, and there
is one record of the output: each transform that has ended has ended in the main module of that
record, and each load whose first turn came after the first turn of some transform in its
stylesheet, or in nothing if it has none. If no transform has taken a turn, nothing has been
compiled. Each load whose first turn came before all of them has ended as too early.

There are finitely many turns that lead on, and when no task can go on, all have taken a first turn
and have ended. -/
theorem one_compile_serves_all_readers (start : Session) (events : List Event) (k : Key)
    (code : String) (pauses : Nat) (compile : CompileInput → CompileResult) :
    start.bench = {} → start.tasks = [] → start.compiler.Obeys pauses compile →
    let a : SharedText := ⟨start.options, k, code, pauses, compile, start.compiler.inputs,
      start.compiler.started⟩
    a.Compiles → (∀ e ∈ events, a.Allows e) →
    let last := start.run events
    (start.BeginsTransform events → ∃ file output, file.components = k.file.components ∧
      compile (a.input file) = .ok output ∧
      last.compiler.inputs = start.compiler.inputs ++ [(start.compiler.started, a.input file)] ∧
      let record := start.options.toRecord (a.input file) output
      (∀ i id first, start.FirstTurn events i (.transform id code k.target) first →
        ∃ r stage, parse start.options id k.target = some r ∧ last.stage? i = some stage ∧
          (stage.hasEnded → stage = .done (.content (some (mainCode start.options r record))))) ∧
      ∀ i sid first, start.FirstTurn events i (.load sid k.target) first →
        start.BeginsTransform first →
        ∃ stage, last.stage? i = some stage ∧
          (stage.hasEnded → stage = .done (.content record.css))) ∧
    (¬ start.BeginsTransform events → last.compiler.inputs = start.compiler.inputs) ∧
    (∀ i sid first, start.FirstTurn events i (.load sid k.target) first →
      ¬ start.BeginsTransform first →
      ∃ q, parse start.options sid k.target = some q ∧
        last.stage? i = some (.done (.refused (.styleTooEarly q.file)))) ∧
    (∀ turns, TakesTurns last turns → turns.length ≤ last.tasks.length * (pauses + 2)) ∧
    (last.runnable = [] →
      (∀ i stage, last.stage? i = some stage →
        stage.hasEnded ∧ ∃ job first, a.Wants job ∧ start.FirstTurn events i job first) ∧
      ∀ name job, .start name job ∈ events → ∃ i first, start.FirstTurn events i job first) := by
  intro hbench htasks hobeys a hcompiles he last
  have hvacant : start.bench.cache.content? a.key = none := by
    rw [hbench]
    rfl
  have hstages {i : Nat} {stage : Stage} (hs : start.stage? i = some stage) : False := by
    rw [stage?, htasks] at hs
    cases hs
  have hstart : Unread a start := by
    refine ⟨rfl, hobeys, rfl, rfl, attended_start htasks, ?_, hvacant, ?_, fun hs =>
      (hstages hs).elim⟩
    · exact sound_events hbench []
    · intro n call hcall
      rw [hbench] at hcall
      cases hcall
  -- A run either has not begun a transform yet, or its readers share the compile.
  have hrun := readings_run hstart hcompiles he
  have hunder : UnderWay a last := by
    rcases hrun with ⟨_, hunread⟩ | ⟨_, file, output, t, _, _, hsharing, _⟩
    · exact .inl hunread
    · exact .inr ⟨file, _, t, hsharing⟩
  refine ⟨fun hbegins => ?_, fun hnone => ?_, ?_, ?_, ?_⟩
  · rcases hrun with ⟨hnone, _⟩ | ⟨_, file, output, t, hfile, houtput, hsharing, hjoined⟩
    · exact absurd hbegins hnone
    refine ⟨file, output, hfile, houtput, hsharing.inputs, ?_, ?_⟩
    · intro i id first hfirst
      have hjoins : start.JoinsReaders events i (.transform id code k.target) :=
        ⟨first, hfirst, i, id, code, k.target, first, ⟨[], rfl⟩, hfirst.2⟩
      obtain ⟨stage, hs, hreads⟩ := hjoined i _ hjoins
      cases hreads with
      | fresh hwants =>
        cases hwants with
        | transform hparse => exact ⟨_, _, hparse, hs, fun hended => by cases hended⟩
      | serving hparse => exact ⟨_, _, hparse, hs, fun hended => by cases hended⟩
      | served hparse => exact ⟨_, _, hparse, hs, fun _ => rfl⟩
    · intro i sid first hfirst hbefore
      obtain ⟨stage, hs, hreads⟩ := hjoined i _ ⟨first, hfirst, hbefore.append _⟩
      refine ⟨stage, hs, fun hended => ?_⟩
      cases hreads with
      | fresh => cases hended
      | styling => cases hended
      | styled => rfl
  · rcases hrun with ⟨_, hunread⟩ | ⟨hbegins, _⟩
    · exact hunread.inputs
    · exact absurd hbegins hnone
  · intro i sid first hfirst hnone
    exact too_early_of_firstTurn hstart hcompiles he hfirst hnone
  · intro turns hturns
    exact (length_le_of_takesTurns hunder hcompiles hturns).trans hunder.turnsAhead_le
  · intro hstill
    have hran {i : Nat} {job : Job} (hfresh : last.stage? i = some (.fresh job)) : False := by
      cases ended_of_underWay hunder hstill hfresh
    -- When nobody can go on everybody has ended, so everybody has had a first turn.
    constructor
    · intro i stage hs
      refine ⟨ended_of_underWay hunder hstill hs, ?_⟩
      obtain ⟨job, hwants, ⟨first, hfirst⟩ | rfl⟩ := firstTurn_or_fresh htasks he hs
      · exact ⟨job, first, hwants, hfirst⟩
      · exact (hran hs).elim
    · intro name job hstarted
      obtain ⟨i, ⟨first, hfirst⟩ | hfresh⟩ := firstTurn_or_fresh_of_start he hstarted
      · exact ⟨i, first, hfirst⟩
      · exact (hran hfresh).elim

end Session

namespace Sample

/-- A compiler's rule that writes one stylesheet for every text. -/
def compileStyled (input : CompileInput) : CompileResult :=
  .ok { js := ⟨input.code, none⟩, css := some ⟨"p \x7b color: red \x7d", none⟩ }

/-- A new session whose compiler follows that rule and pauses twice. -/
def patient : Session where
  options := { root := ⟨"/"⟩ }
  compiler := { kind := .rule 2 compileStyled }

/-- A task is started that loads the stylesheet of the component. -/
def styling : Session.Event :=
  .start "style" (.load "/A.svelte?svelte&type=style&lang.css" .dom)

end Sample

namespace Session

/-- One load comes too early, and two transforms and another load share a compile that is suspended
twice. -/
theorem one_compile_serves_all_readers_four :
    let first : List Event := [Sample.styling, .resume 0, Sample.typed "one"]
    let joined : List Event := [.resume 1, Sample.typed "one", .resume 2, Sample.styling]
    let later : List Event := [.resume 3, .resume 1, .resume 3, .resume 1, .resume 2, .resume 3]
    let last := Sample.patient.run (first ++ joined ++ later)
    let js : Code := ⟨"one\nimport \"/A.svelte?svelte&type=style&lang.css\";\n", none⟩
    last.stage? 0 = some (.done (.refused (.styleTooEarly ⟨"/A.svelte"⟩))) ∧
    last.stage? 1 = some (.done (.content (some js))) ∧
    last.stage? 2 = some (.done (.content (some js))) ∧
    last.stage? 3 = some (.done (.content (some ⟨"p \x7b color: red \x7d", none⟩))) ∧
    ∃ file output,
      last.compiler.inputs = [(0, Sample.patient.options.compileInput file "one" .dom)] ∧
      some ⟨"p \x7b color: red \x7d", none⟩ = (Sample.patient.options.toRecord
        (Sample.patient.options.compileInput file "one" .dom) output).css := by
  intro first joined later last js
  let r : Request := ⟨⟨"/A.svelte"⟩, "/A.svelte", .empty, .dom, none⟩
  let q : Request := ⟨⟨"/A.svelte"⟩, "/A.svelte",
    ⟨[.marker, .artifact .style, .langCss]⟩, .dom, none⟩
  let a : SharedText := ⟨Sample.patient.options, ⟨⟨"/A.svelte"⟩, .dom⟩, "one", 2,
    Sample.compileStyled, [], 0⟩
  have hparse : parse a.options "/A.svelte" .dom = some r := by decide +kernel
  have hparseStyle : parse a.options "/A.svelte?svelte&type=style&lang.css" .dom = some q := by
    decide +kernel
  have htransform : a.Allows (Sample.typed "one") := .transform hparse rfl rfl
  have hload : a.Allows Sample.styling := .load hparseStyle rfl rfl
  have he : ∀ e ∈ first ++ joined ++ later, a.Allows e := by
    intro e hmem
    simp only [first, joined, later, List.cons_append, List.nil_append, List.mem_cons,
      List.not_mem_nil, or_false] at hmem
    rcases hmem with rfl | rfl | rfl | rfl | rfl | rfl | rfl | rfl | rfl | rfl | rfl | rfl | rfl
    all_goals first | exact htransform | exact hload | rfl
  have hends : last.stage? 0 = some (.done (.refused (.styleTooEarly ⟨"/A.svelte"⟩))) ∧
      last.stage? 1 = some (.done (.content (some js))) ∧
      last.stage? 2 = some (.done (.content (some js))) ∧
      last.stage? 3 = some (.done (.content (some ⟨"p \x7b color: red \x7d", none⟩))) := by
    decide +kernel
  have hbegins : Sample.patient.BeginsTransform (first ++ joined) :=
    ⟨1, "/A.svelte", "one", .dom, first, ⟨⟨_, rfl⟩, by decide +kernel⟩⟩
  have hfirst : Sample.patient.FirstTurn (first ++ joined ++ later) 3
      (.load "/A.svelte?svelte&type=style&lang.css" .dom) (first ++ joined) :=
    ⟨⟨_, rfl⟩, by decide +kernel⟩
  obtain ⟨hshared, _⟩ := one_compile_serves_all_readers Sample.patient (first ++ joined ++ later)
    a.key "one" 2 Sample.compileStyled rfl rfl ⟨rfl, rfl, rfl⟩ (fun _ _ => ⟨_, rfl⟩) he
  obtain ⟨file, output, _, _, hinputs, _, hloads⟩ := hshared (hbegins.append later)
  obtain ⟨stage, hs, hstage⟩ := hloads 3 _ _ hfirst hbegins
  refine ⟨hends.1, hends.2.1, hends.2.2.1, hends.2.2.2, file, output, hinputs, ?_⟩
  cases hends.2.2.2.symm.trans hs
  injection hstage rfl with hdone
  injection hdone

end Session

end HotComponents
