import HotComponents.Proofs.Cache.Step
import HotComponents.Proofs.Session.Steps

/-!
# Sessions move their workbench

Whatever a session does to its cache it does by moves on its workbench, and unless it is closed or
its cache is changed from outside, these moves edit none of the browser's slots: only records for
the server are dropped. A task that is resumed or given up changes no stage but its own.

* `Steps.follows`, `Arrives.follows`: both facts for steps and turns;
* `follows_apply`: both facts for every event;
* `bench_run`: a run of a session is a run of its workbench.
-/

namespace HotComponents

open ModuleId

/-- The move edits none of the browser's slots. -/
def Move.SparesDom (m : Move) : Prop := ∀ k : Key, k.target = .dom → m.touches k = false

/-- What is no edit edits no slot. -/
theorem Move.sparesDom_of_not_edit {m : Move} (h : m.isEdit = false) : m.SparesDom := by
  intro k _
  cases htouch : m.touches k with
  | false => rfl
  | true =>
    rw [isEdit_of_touches htouch] at h
    cases h

/-- Dropping a record for the server leaves the browser's slots alone. -/
theorem Move.sparesDom_invalidateKey {l : Key} (h : l.target = .ssr) :
    (Move.invalidateKey l).SparesDom := by
  intro k hk
  -- Slots of the server and of the browser differ in their targets.
  have hne : l.slot ≠ k.slot := by
    intro heq
    have htarget : l.target = k.target := congrArg Prod.snd heq
    rw [h, hk] at htarget
    cases htarget
  simpa [Move.touches, Key.same] using hne

namespace Session

variable {s s' s'' : Session} {i j : Nat} {actor : Option Nat} {m : Move} {r : Request}
  {old : Stage}

/-- How far the task with a number has come. -/
def stage? (s : Session) (i : Nat) : Option Stage := s.tasks[i]?.map Task.stage

/-- Only the task that comes to another stage is found at another stage. -/
theorem stage?_setStage (s : Session) (i j : Nat) (stage : Stage) :
    (s.setStage i stage).stage? j =
      if i = j then (s.stage? j).map fun _ => stage else s.stage? j := by
  unfold stage? setStage
  rw [List.getElem?_modify]
  by_cases hij : i = j
  · simp [hij, Function.comp_def]
  · simp [hij]

/-- A task that is there is found where it has come to. -/
theorem stage?_setStage_self (hs : (s.stage? i).isSome) (stage : Stage) :
    (s.setStage i stage).stage? i = some stage := by
  obtain ⟨old, hold⟩ := Option.isSome_iff_exists.1 hs
  rw [stage?_setStage, if_pos rfl, hold]
  rfl

/-- A new task has yet to take its first turn. -/
theorem stage?_startTask_new (s : Session) (name : String) (job : Job) :
    (s.startTask name job).stage? s.tasks.length = some (.fresh job) := by
  simp [stage?, startTask]

/-- A task goes on from its stage. -/
theorem resume_eq {stage : Stage} (h : s.stage? i = some stage) :
    s.resume i = s.resumeFrom i stage := by
  obtain ⟨t, ht, rfl⟩ := Option.map_eq_some_iff.1 h
  simp only [resume, ht]

/-- A transform of a main module begins to serve it in its first turn. -/
theorem resume_transform {id code : String} {target : Target}
    (hs : s.stage? i = some (.fresh (.transform id code target)))
    (hparse : parse s.options id target = some r) (hmain : r.route = .main) :
    s.resume i = (s.say (readingNotes s.options id target)).startServing i r code := by
  have hparse' : parse (s.say (readingNotes s.options id target)).options id target = some r :=
    hparse
  rw [resume_eq hs]
  simp only [resumeFrom, begin, startTransform, hparse', hmain, if_true]

/-- A task for a stylesheet begins to serve it in its first turn. -/
theorem resume_load {id : String} {target : Target}
    (hs : s.stage? i = some (.fresh (.load id target)))
    (hparse : parse s.options id target = some r) (hstyle : r.route = .style) :
    s.resume i = (s.say (readingNotes s.options id target)).startStyling i r := by
  have hparse' : parse (s.say (readingNotes s.options id target)).options id target = some r :=
    hparse
  rw [resume_eq hs]
  simp only [resumeFrom, begin, startLoad, hparse', hstyle, if_true]

/-- A session comes from another one by what one task does, or none: by moves that edit none of the
browser's slots, while all other tasks stay where they are. -/
structure Follows (actor : Option Nat) (s s' : Session) : Prop where
  moves : ∃ moves : List Move, s'.bench = s.bench.run moves ∧ ∀ m ∈ moves, m.SparesDom
  others : ∀ {j : Nat} {stage : Stage}, actor ≠ some j → s.stage? j = some stage →
    s'.stage? j = some stage

/-- A session comes from itself. -/
theorem follows_refl (actor : Option Nat) (s : Session) : Follows actor s s :=
  ⟨⟨[], rfl, by simp⟩, fun _ h => h⟩

/-- What comes from what comes from a session comes from it. -/
theorem Follows.trans (h : Follows actor s s') (h' : Follows actor s' s'') :
    Follows actor s s'' := by
  obtain ⟨⟨moves, hbench, hspare⟩, hothers⟩ := h
  obtain ⟨⟨more, hbench', hspare'⟩, hothers'⟩ := h'
  refine ⟨⟨moves ++ more, ?_, ?_⟩, fun hj hstage => hothers' hj (hothers hj hstage)⟩
  · rw [hbench', hbench, Workbench.run_append]
  · exact List.forall_mem_append.2 ⟨hspare, hspare'⟩

/-- What leaves workbench and tasks alone. -/
theorem follows_of_eq (hbench : s'.bench = s.bench) (htasks : s'.tasks = s.tasks) :
    Follows actor s s' := by
  refine ⟨⟨[], hbench, by simp⟩, fun _ hstage => ?_⟩
  unfold stage?
  rw [htasks]
  exact hstage

/-- A move of a task that spares the browser's slots. -/
theorem follows_act (h : m.SparesDom) : Follows actor s (s.act m) :=
  ⟨⟨[m], rfl, by simpa using h⟩, fun _ hstage => hstage⟩

/-- A task comes to another stage, and no other task does. -/
theorem follows_setStage (stage : Stage) : Follows (some i) s (s.setStage i stage) := by
  refine ⟨⟨[], rfl, by simp⟩, fun {j stage'} hj hstage => ?_⟩
  rw [stage?_setStage, if_neg (fun h => hj (congrArg some h))]
  exact hstage

/-! ## Turns -/

/-- Of all the steps of a turn only dropping a record edits a slot, and that is one of the
server's. -/
theorem Steps.follows {own₀ own : Option Nat} (h : Steps old own₀ s own s') :
    Follows actor s s' := by
  have hquiet {m : Move} (hm : m.isEdit = false) (y : Session) : Follows actor y (y.act m) :=
    follows_act (Move.sparesDom_of_not_edit hm)
  induction h with
  | start => exact follows_refl _ _
  | say _ _ ih => exact ih.trans (follows_of_eq rfl rfl)
  | compile _ _ ih => exact ih.trans (follows_of_eq rfl rfl)
  | call _ _ _ ih => exact (ih.trans (hquiet rfl _)).trans (hquiet rfl _)
  | resume _ ih => exact ih.trans (hquiet rfl _)
  | finish _ _ ih => exact ih.trans (hquiet rfl _)
  | giveUp _ ih => exact ih.trans (hquiet rfl _)
  | leave _ _ ih => exact ih
  | drop _ _ hl ih => exact ih.trans (follows_act (Move.sparesDom_invalidateKey hl))

/-- A whole turn moves its own task only. -/
theorem Arrives.follows {own₀ : Option Nat} (h : Arrives i old own₀ s s') :
    Follows (some i) s s' := by
  cases h with
  | comes h => exact h.follows.trans (follows_setStage _)
  | stays h => exact h.follows

/-- Behind a new record an answer goes on to the rest of its list. -/
theorem follows_reconcile (u : Update) (component : FilePath) (previous : Option Record)
    (record : Record) : Follows (some i) s (s.reconcile i u component previous record) := by
  have hsteps : Steps (.updating u component 0 none) none s none s := .start
  exact (hsteps.reconcile rfl (fun _ => id) previous record).follows

/-- A task takes its turn. -/
theorem follows_resume (s : Session) (i : Nat) : Follows (some i) s (s.resume i) := by
  unfold resume
  split
  · next t _ =>
    obtain ⟨y, -, hbench, htasks, hturn | ⟨-, hstale⟩⟩ := exists_arrives s i t.stage
    · exact (follows_of_eq hbench htasks).trans hturn.follows
    · rw [hstale]
      exact (follows_of_eq hbench htasks).trans (follows_setStage _)
  · exact follows_refl _ _

/-- A task is given up. -/
theorem follows_cancel (s : Session) (i : Nat) : Follows (some i) s (s.cancel i) := by
  cases ht : s.tasks[i]? with
  | some t => exact (arrives_cancel ht).follows
  | none =>
    simp only [cancel, ht]
    exact follows_refl _ _

/-! ## Events -/

/-- The session is neither closed nor its cache changed from outside. -/
def Event.isInside : Event → Bool
  | .close => false
  | .edit _ => false
  | _ => true

/-- The task that an event moves. -/
def Event.actor? : Event → Option Nat
  | .resume i => some i
  | .cancel i => some i
  | _ => none

/-- Resolving an import changes neither tasks nor cache nor compiler. -/
theorem apply_resolve (s : Session) (id : String) (importer : Option FilePath) (target : Target) :
    ∃ resolver journal, s.apply (.resolve id importer target) = { s with resolver, journal } := by
  simp only [apply, resolveId]
  split <;> exact ⟨_, _, rfl⟩

/-- Every event but closing and changes from outside edits none of the browser's slots, and moves at
most the task it is for. -/
theorem follows_apply {e : Event} (h : e.isInside) (s : Session) :
    Follows e.actor? s (s.apply e) := by
  cases e with
  | start name job =>
    refine ⟨⟨[], rfl, by simp⟩, fun {j stage} _ hstage => ?_⟩
    obtain ⟨t, ht, hstage⟩ := Option.map_eq_some_iff.1 hstage
    have hlt : j < s.tasks.length := (List.getElem?_eq_some_iff.1 ht).1
    simp only [apply, startTask, stage?, List.getElem?_append_left hlt, ht, Option.map_some, hstage]
  | resume i => exact follows_resume s i
  | cancel i => exact follows_cancel s i
  | disk d => exact follows_of_eq rfl rfl
  | lineUp results => exact follows_of_eq rfl rfl
  | deliver number result => exact follows_of_eq rfl rfl
  | resolve id importer target =>
    obtain ⟨resolver, journal, happly⟩ := apply_resolve s id importer target
    rw [happly]
    exact follows_of_eq rfl rfl
  | buildEnd => exact follows_of_eq rfl rfl
  | close => cases h
  | edit m => cases h

/-- A task stays where it is in an event that is not for it. -/
theorem stage?_apply_of_ne {stage : Stage} {e : Event} (hs : s.stage? i = some stage)
    (hne : e.actor? ≠ some i) : (s.apply e).stage? i = some stage := by
  by_cases hinside : e.isInside
  · exact (follows_apply hinside s).others hne hs
  · cases e with
    | close => exact hs
    | edit m => exact hs
    | _ => exact absurd rfl hinside

/-! ## Runs of a session as runs of its workbench -/

/-- An event moves the workbench some way. -/
theorem bench_apply (s : Session) (e : Event) :
    ∃ moves : List Move, (s.apply e).bench = s.bench.run moves := by
  by_cases hinside : e.isInside
  · obtain ⟨moves, hbench, _⟩ := (follows_apply hinside s).moves
    exact ⟨moves, hbench⟩
  · cases e with
    | close => exact ⟨[.clear], rfl⟩
    | edit m => exact ⟨[m], rfl⟩
    | _ => exact absurd rfl hinside

/-- So does a run of events. -/
theorem bench_run (s : Session) (events : List Event) :
    ∃ moves : List Move, (s.run events).bench = s.bench.run moves := by
  induction events generalizing s with
  | nil => exact ⟨[], rfl⟩
  | cons e events ih =>
    obtain ⟨moves, hfirst⟩ := bench_apply s e
    obtain ⟨more, hrest⟩ := ih (s.apply e)
    refine ⟨moves ++ more, ?_⟩
    rw [Workbench.run_append, ← hfirst]
    exact hrest

end Session

end HotComponents
