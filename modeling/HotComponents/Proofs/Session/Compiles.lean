import HotComponents.Proofs.Session.Delivery

/-!
# Compiles that begin

A task that is suspended on a compile behind its turn was suspended on it before, or has begun it in
the turn; either way it has stored nothing. The compiles that were begun for a slot are counted, and
the count never goes down, so where it is the same at both ends of a run none has begun meanwhile.

* `begunFor_le_apply`, `begunFor_le_run`: no compile is forgotten;
* `suspends_resume`: where a compile comes from that a task is suspended on.
-/

namespace HotComponents

open ModuleId

namespace Compiler

/-- The number of compiles for a slot that were begun. -/
def begunFor (c : Compiler) (slot : Slot) : Nat :=
  c.inputs.countP fun entry => (entry.2.file.components, entry.2.target) = slot

theorem begunFor_start (c : Compiler) (input : CompileInput) (slot : Slot) :
    (c.start input).1.begunFor slot =
      c.begunFor slot + if (input.file.components, input.target) = slot then 1 else 0 := by
  simp [begunFor, inputs_start, List.countP_append, List.countP_singleton]

theorem begunFor_deliver (c : Compiler) (number : Nat) (result : CompileResult) (slot : Slot) :
    ((c.deliver? number result).getD c).begunFor slot = c.begunFor slot := by
  unfold deliver?
  split <;> rfl

end Compiler

namespace Session

open Workbench

variable {s y : Session} {i n : Nat} {old new : Stage} {events : List Event} {r : Request}
  {code : String} {c : Compiling} {u : Update} {component : FilePath} {k : Key} {f : Filed}

/-- A piece of work begins at most one compile more. -/
theorem Worked.begunFor_le {after : Compiler} (h : s.Worked after i y) (slot : Slot) :
    s.compiler.begunFor slot ≤ y.compiler.begunFor slot := by
  rcases h.compiler with hsame | ⟨input, hstart⟩
  · exact Nat.le_of_eq (by rw [hsame])
  · rw [hstart, Compiler.begunFor_start]
    exact Nat.le_add_right _ _

/-- No compile is forgotten. -/
theorem begunFor_le_apply (h : Attended s) (e : Event) (slot : Slot) :
    s.compiler.begunFor slot ≤ (s.apply e).compiler.begunFor slot := by
  cases e with
  | resume i =>
    change s.compiler.begunFor slot ≤ (s.resume i).compiler.begunFor slot
    rcases turned_resume h i with ⟨old, _, hturned⟩ | hsame
    · generalize s.resume i = s' at hturned
      cases hturned with
      | intro hworked => exact hworked.begunFor_le slot
    · exact Nat.le_of_eq (by rw [hsame])
  | cancel i =>
    change s.compiler.begunFor slot ≤ (s.cancel i).compiler.begunFor slot
    rcases cancelled_cancel s i with ⟨old, y, _, hworked, _, hcancel⟩ | hsame
    · rw [hcancel]
      exact hworked.begunFor_le slot
    · exact Nat.le_of_eq (by rw [hsame])
  | deliver number result => exact Nat.le_of_eq (Compiler.begunFor_deliver _ _ _ _).symm
  | resolve id importer target =>
    obtain ⟨resolver, journal, happly⟩ := apply_resolve s id importer target
    exact Nat.le_of_eq (by rw [happly])
  | _ => exact Nat.le_refl _

/-- No compile is forgotten along a run. -/
theorem begunFor_le_run (h : Attended s) (he : ∀ e ∈ events, e.putsNothing) (slot : Slot) :
    s.compiler.begunFor slot ≤ (s.run events).compiler.begunFor slot := by
  induction events generalizing s with
  | nil => exact Nat.le_refl _
  | cons e events ih =>
    rw [List.forall_mem_cons] at he
    exact Nat.le_trans (begunFor_le_apply h e slot) (ih (attended_apply h he.1) he.2)

/-! ## Tasks that are suspended on a compile -/

/-- The task is not suspended on a compile. -/
def Uncompiling (s : Session) (i : Nat) : Prop :=
  ∀ stage, s.stage? i = some stage → stage.compiling? = none

/-- A task has come to a session where it is suspended on a compile, from a stage: the compile was
under way before or is begun by then, and no current record has changed. -/
structure Suspends (s : Session) (old : Stage) (c : Compiling) (y : Session) : Prop where
  current : ∀ k, y.bench.cache.current? k = s.bench.cache.current? k
  origin : (∃ c', old.compiling? = some c' ∧ c'.input = c.input) ∨
    y.compiler = (s.compiler.start c.input).1

/-- If the task is suspended on a compile in the session it has come to, that has come about as
`Suspends` says. -/
def CompilesFrom (s : Session) (i : Nat) (old : Stage) (y : Session) : Prop :=
  ∀ new c, y.stage? i = some new → new.compiling? = some c → Suspends s old c y

theorem uncompiling_setStage (hnew : new.compiling? = none) : Uncompiling (y.setStage i new) i := by
  intro stage hstage
  rw [stage?_setStage, if_pos rfl] at hstage
  obtain ⟨_, _, rfl⟩ := Option.map_eq_some_iff.1 hstage
  exact hnew

theorem uncompiling_startRecompute : Uncompiling (y.startRecompute i u component) i := by
  refine uncompiling_setStage ?_
  split <;> rfl

theorem uncompiling_drain (file : FilePath) (affected : List String) (items : List UpdateItem) :
    Uncompiling (y.drain i file affected items) i := by
  have hdrained := drained_drain y i file affected items
  generalize y.drain i file affected items = z at hdrained ⊢
  cases hdrained with
  | ended => exact uncompiling_setStage rfl
  | stopped => exact uncompiling_startRecompute

/-- Where a recompute's compile has ended, the task has no compile under way, whatever comes next.
-/
theorem uncompiling_finishRecompute (hcomputes : y.bench.Computes n ⟨component, .dom⟩ .recompute)
    (outcome : Except BuildError Record) :
    Uncompiling (y.finishRecompute i u component n outcome) i := by
  obtain ⟨t, d, hcall⟩ := hcomputes
  unfold finishRecompute
  -- A record lets the answer go on with its items, a failure ends it.
  cases outcome with
  | ok record =>
    have hanswer := answer?_finish_ok hcall rfl record
    rw [← bench_act] at hanswer
    simp only [hanswer, Call.computedAnswer, Answer.map]
    exact uncompiling_drain _ _ _
  | error e =>
    have hanswer := answer?_finish_error hcall rfl e
    rw [← bench_act] at hanswer
    simp only [hanswer]
    exact uncompiling_setStage rfl

/-- Where the compile of a main module has ended, the task has no compile under way. -/
theorem uncompiling_finishServing (hcomputes : y.bench.Computes n r.key (servingIntent r code))
    (input : CompileInput) (result : CompileResult) :
    Uncompiling (y.finishServing i r n input result) i := by
  obtain ⟨t, d, hcall⟩ := hcomputes
  simp only [finishServing, judge]
  generalize (y.options.judge input result).mapError BuildError.compile = outcome
  unfold endServing
  cases outcome with
  | ok record =>
    have hanswer := answer?_finish_ok hcall rfl record
    simp only [bench_act, bench_say, hanswer, Call.computedAnswer, servingIntent, Answer.map]
    exact uncompiling_setStage rfl
  | error e =>
    have hanswer := answer?_finish_error hcall rfl e
    simp only [bench_act, bench_say, hanswer]
    exact uncompiling_setStage rfl

theorem uncompiling_startStyling : Uncompiling (y.startStyling i r) i := by
  unfold startStyling advanceStyling
  dsimp only
  split
  · exact uncompiling_setStage rfl
  · exact uncompiling_setStage rfl
  · exact uncompiling_setStage rfl
  · exact uncompiling_setStage rfl

/-- A call that is made and resumed leaves every current record as it is. -/
theorem current?_call (hw : Sound y.bench) (key : Key) (intent : Intent) (k : Key) :
    (y.call key intent).1.bench.cache.current? k = y.bench.cache.current? k := by
  have hw' := sound_step hw (step_apply y.bench (.make key intent))
  have hmade := current?_apply hw (.make key intent) k
  have hresumed := current?_apply hw' (.resume y.bench.calls.length) k
  exact hresumed.trans hmade

theorem compilesFrom_of_uncompiling (h : Uncompiling y i) : CompilesFrom s i old y := by
  intro new c hnew hc
  rw [h new hnew] at hc
  cases hc

theorem compilesFrom_progressServing (hcurrent : ∀ k, y.bench.cache.current? k =
    s.bench.cache.current? k) {input : CompileInput}
    (horigin : (∃ c', old.compiling? = some c' ∧ c'.input = input) ∨
      y.compiler = (s.compiler.start input).1)
    (hcomputes : y.bench.Computes n r.key (servingIntent r code)) (progress : Progress) :
    CompilesFrom s i old (y.progressServing i r code n input progress) := by
  cases progress with
  | ended result => exact compilesFrom_of_uncompiling (uncompiling_finishServing hcomputes _ _)
  | suspended suspension =>
    intro new c hnew hc
    rw [progressServing, stage?_setStage, if_pos rfl] at hnew
    obtain ⟨_, _, rfl⟩ := Option.map_eq_some_iff.1 hnew
    cases hc
    exact ⟨hcurrent, horigin⟩

theorem compilesFrom_advanceServing (hs : y.stage? i = some old) (hcurrent : ∀ k,
    y.bench.cache.current? k = s.bench.cache.current? k) (hcompiler : y.compiler = s.compiler)
    {p : Phase} (hcall : y.bench.calls[n]? = some ⟨r.key, servingIntent r code, p⟩) :
    CompilesFrom s i old (y.advanceServing i r code n) := by
  have hphase : y.bench.phase? n = some p := by rw [phase?, hcall]; rfl
  unfold advanceServing
  rw [hphase]
  split
  · next t d hp =>
    cases hp
    let started := y.startCompile r.file code r.target
    change CompilesFrom s i old
      (started.1.progressServing i r code n started.2.1 started.2.2)
    have hbegun : started.1.compiler = (s.compiler.start started.2.1).1 := by
      rw [← hcompiler]
      rfl
    exact compilesFrom_progressServing (y := started.1) hcurrent (.inr hbegun) ⟨t, d, hcall⟩ _
  · -- The call has returned, so the task ends, or it stays where it was.
    unfold endServing
    split
    · exact compilesFrom_of_uncompiling (uncompiling_setStage rfl)
    · exact compilesFrom_of_uncompiling (uncompiling_setStage rfl)
    · intro new c hnew hc
      cases hs.symm.trans hnew
      exact ⟨hcurrent, .inl ⟨c, hc, rfl⟩⟩
  · exact compilesFrom_of_uncompiling (uncompiling_setStage rfl)

/-- A main module that is asked for begins a compile only where its call leads. -/
theorem compilesFrom_startServing (hw : Sound s.bench) (hs : y.stage? i = some old)
    (hbench : y.bench = s.bench) (hcompiler : y.compiler = s.compiler) :
    CompilesFrom s i old (y.startServing i r code) := by
  obtain ⟨p, hcall, _⟩ := reaches_call y r.key (servingIntent r code)
  refine compilesFrom_advanceServing (y := (y.call r.key (servingIntent r code)).1) hs
    (fun k => ?_) hcompiler hcall
  rw [current?_call (hbench ▸ hw), hbench]

/-- A recompute that goes on has its compile under way since before the turn, or has begun it. -/
theorem compilesFrom_progressRecompute (hcurrent : ∀ k, y.bench.cache.current? k =
    s.bench.cache.current? k) {input : CompileInput}
    (horigin : (∃ c', old.compiling? = some c' ∧ c'.input = input) ∨
      y.compiler = (s.compiler.start input).1)
    (hcomputes : y.bench.Computes n ⟨component, .dom⟩ .recompute) (progress : Progress) :
    CompilesFrom s i old (y.progressRecompute i u component n input progress) := by
  cases progress with
  | ended result =>
    exact compilesFrom_of_uncompiling
      (uncompiling_finishRecompute (y := (y.judge input result).1) hcomputes _)
  -- Only here is a compile still under way, and it is the one that was worked on.
  | suspended suspension =>
    intro new c hnew hc
    rw [progressRecompute, stage?_setStage, if_pos rfl] at hnew
    obtain ⟨_, _, rfl⟩ := Option.map_eq_some_iff.1 hnew
    cases hc
    exact ⟨hcurrent, horigin⟩

/-- A task's first turn has a compile under way only if it has begun it. -/
theorem compilesFrom_begin (hw : Sound s.bench) {job : Job} (hs : s.stage? i = some (.fresh job)) :
    CompilesFrom s i (.fresh job) (s.begin i job) := by
  have hset {y : Session} {new : Stage} (hnew : new.compiling? = none) :
      CompilesFrom s i (.fresh job) (y.setStage i new) :=
    compilesFrom_of_uncompiling (uncompiling_setStage hnew)
  -- Main modules are the one kind of job that compiles in the first turn.
  cases job with
  | serve r code =>
    simp only [begin, startRequest]
    split
    · exact compilesFrom_startServing hw hs rfl rfl
    · exact hset rfl
    · exact compilesFrom_of_uncompiling uncompiling_startStyling
    · exact hset rfl
  | load id target =>
    simp only [begin, startLoad]
    split
    · split
      · exact compilesFrom_of_uncompiling uncompiling_startStyling
      · exact hset rfl
    · exact hset rfl
  | transform id code target =>
    simp only [begin, startTransform]
    split
    · split
      · exact compilesFrom_startServing (y := s.say (readingNotes s.options id target)) hw hs
          rfl rfl
      · exact hset rfl
    · exact hset rfl
  | change file timestamp =>
    simp only [begin, startChange]
    split
    · exact hset rfl
    · split
      · exact hset rfl
      · split
        · exact hset rfl
        · exact compilesFrom_of_uncompiling (uncompiling_drain _ _ _)

/-- A task that is suspended on a compile behind its turn was suspended on it before, or has begun
it in the turn; no current record has changed. -/
theorem suspends_resume (h : Attended s) (hw : Sound s.bench) (hs : s.stage? i = some old)
    (hnew : (s.resume i).stage? i = some new) (hc : new.compiling? = some c) :
    Suspends s old c (s.resume i) := by
  suffices hcompiles : CompilesFrom s i old (s.resume i) from hcompiles new c hnew hc
  have hresume (n : Nat) (k : Key) :
      (s.act (.resume n)).bench.cache.current? k = s.bench.cache.current? k :=
    current?_apply hw _ k
  rw [resume_eq hs]
  have hset {y : Session} {new : Stage} (hnew : new.compiling? = none) :
      CompilesFrom s i old (y.setStage i new) :=
    compilesFrom_of_uncompiling (uncompiling_setStage hnew)
  -- Only a task that serves a main module or makes a component anew is left compiling.
  cases old with
  | fresh job => exact compilesFrom_begin hw hs
  | readingSource r =>
    simp only [resumeFrom, sourceRead]
    split
    · exact compilesFrom_startServing hw hs rfl rfl
    · exact hset rfl
  | serving r code n making =>
    cases making with
    | none =>
      obtain ⟨t, hcall⟩ := h.fits hs
      obtain ⟨p, hnow, _⟩ := reaches_resume hcall (.inr ⟨t, rfl⟩)
      exact compilesFrom_advanceServing (y := s.act (.resume n)) hs (hresume n) rfl hnow
    | some c =>
      exact compilesFrom_progressServing (fun _ => rfl) (.inl ⟨c, rfl, rfl⟩) (h.fits hs).1 _
  | styling r n =>
    simp only [resumeFrom, advanceStyling]
    split
    · exact hset rfl
    · exact hset rfl
    · exact hset rfl
    · exact hset rfl
  | updating u component n making =>
    cases making with
    | none =>
      simp only [resumeFrom, advanceRecompute]
      refine hset ?_
      split <;> rfl
    | some making =>
      have hcomputes := (h.fits hs).1
      cases making with
      | reading =>
        simp only [resumeFrom, componentRead]
        split
        · next code _ =>
          let started := s.startCompile component code .dom
          have hbegun : started.1.compiler = (s.compiler.start started.2.1).1 := rfl
          exact compilesFrom_progressRecompute (s := s) (y := started.1) (fun _ => rfl)
            (.inr hbegun) hcomputes started.2.2
        · exact compilesFrom_of_uncompiling (uncompiling_finishRecompute hcomputes _)
      | compiling c =>
        exact compilesFrom_progressRecompute (fun _ => rfl) (.inl ⟨c, rfl, rfl⟩) hcomputes _
  | done result =>
    intro new c hnew hc
    cases hs.symm.trans hnew
    cases hc
  | cancelled =>
    intro new c hnew hc
    cases hs.symm.trans hnew
    cases hc

end Session

end HotComponents
