import HotComponents.Proofs.Session.Attended
import HotComponents.Proofs.Session.Change

/-!
# Which changes are reported

While a session does nothing but answer to changes, the current record of a component is replaced
only in the turn in which an answer has made it anew. In that turn the answer compares the two
records and gathers the modules that are stale by the new one. It returns what it has gathered when
it is through with the change, but if it fails later on, nothing of it.

* `informs_resume`: what one turn of an answer replaces, and what it gathers;
* `keeps_of_replaces`: what an answer that has replaced a record has gathered in the end;
* `replaced_run`: what is seen to change in a run was changed in a turn of an answer;
* `visible_change_is_reported_unless_the_answer_fails`: who reports what is seen to change.
-/

namespace HotComponents

open ModuleId

namespace Stage

/-- The task answers to a change, or has ended. -/
def answersOrEnded : Stage → Bool
  | fresh (.change _ _) => true
  | updating _ _ _ _ => true
  | stage => stage.hasEnded

/-- The modules that an answer has gathered by now, or has returned. -/
def gathered : Stage → List String
  | updating u _ _ _ => u.affected
  | done (.updated (.affected ids)) => ids
  | _ => []

/-- The answer has failed, or has gathered the modules. -/
def Holds (ids : List String) (stage : Stage) : Prop :=
  (∃ e, stage = done (.failed e)) ∨ ∀ id ∈ ids, id ∈ stage.gathered

/-- An answer that is still under way has not failed. -/
theorem Holds.mem_gathered {ids : List String} {stage : Stage} (h : stage.Holds ids)
    (hgoes : stage.hasEnded = false) : ∀ id ∈ ids, id ∈ stage.gathered := by
  rcases h with ⟨e, rfl⟩ | hall
  · cases hgoes
  · exact hall

theorem answersOrEnded_of_hasEnded {stage : Stage} (h : stage.hasEnded) :
    stage.answersOrEnded := by
  cases stage <;> first | rfl | cases h

end Stage

namespace Session

open Workbench

variable {s s' s'' : Session} {i j n : Nat} {k : Key} {old stage : Stage} {f f' : Filed}
  {events : List Event}

/-- The event is one of those that a session can meet while it does nothing but answer to
changes. -/
def Event.onlyChanges : Event → Bool
  | .start _ (.change _ _) => true
  | .start _ _ => false
  | .cancel _ => false
  | .close => false
  | .edit _ => false
  | _ => true

theorem Event.putsNothing_of_onlyChanges {e : Event} (h : e.onlyChanges) : e.putsNothing := by
  cases e <;> first | rfl | cases h

/-! ## Records that stay current -/

/-- What is trimmed is for the server, so browser records stay as they are. -/
theorem Trims.current? (h : Trims s s') (hk : k.target = .dom) :
    s'.bench.cache.current? k = s.bench.cache.current? k := by
  rw [Cache.current?, Cache.current?, h.content hk]

theorem current?_startRecompute (hw : Sound s.bench) (u : Update) (component : FilePath) :
    (s.startRecompute i u component).bench.cache.current? k = s.bench.cache.current? k := by
  have hmade := sound_step hw (step_apply s.bench (.make ⟨component, .dom⟩ .recompute))
  rw [bench_startRecompute]
  exact (current?_apply hmade (.resume _) k).trans (current?_apply hw (.make _ _) k)

/-- Going through the rest of a worklist replaces no browser record. -/
theorem current?_drain (hw : Sound s.bench) (hk : k.target = .dom) {file : FilePath}
    {affected : List String} {items : List UpdateItem} :
    (s.drain i file affected items).bench.cache.current? k = s.bench.cache.current? k := by
  have hdrained := drained_drain s i file affected items
  generalize s.drain i file affected items = after at hdrained ⊢
  cases hdrained with
  | ended htrims _ => exact htrims.current? hk
  | stopped htrims _ =>
    exact (current?_startRecompute (htrims.sound hw) _ _).trans (htrims.current? hk)

/-- In its first turn an answer replaces no record of the browser's. -/
theorem current?_startChange (hw : Sound s.bench) (hk : k.target = .dom) {file : FilePath}
    {timestamp : Nat} :
    (s.startChange i file timestamp).bench.cache.current? k = s.bench.cache.current? k := by
  unfold startChange
  split
  · rfl
  · split
    · rfl
    · -- An accepted change drops the server record of the file and goes on with its items.
      have htrims := trims_receive s file timestamp
      change (if _ then (s.receive file timestamp).endTask i _ else
        (s.receive file timestamp).drain i file [] _).bench.cache.current? k = _
      split
      · exact htrims.current? hk
      · exact (current?_drain (htrims.sound hw) hk).trans (htrims.current? hk)

theorem current?_reconcile (hw : Sound s.bench) (hk : k.target = .dom) (u : Update)
    (component : FilePath) (previous : Option Record) (r : Record) :
    (s.reconcile i u component previous r).bench.cache.current? k = s.bench.cache.current? k := by
  obtain ⟨y, htrims, hdrain⟩ := reconcile_eq s i u component previous r
  rw [hdrain]
  exact (current?_drain (htrims.sound hw) hk).trans (htrims.current? hk)

/-- A call for a new record that has not returned one has stored none. -/
theorem current?_unrenewed {w w' : Workbench} {call : Call} (hw : Sound w)
    (hcall : w.calls[n]? = some call) (hintent : call.intent = .recompute)
    (h : Unrenewed w n w') (k : Key) : w'.cache.current? k = w.cache.current? k := by
  rcases h with rfl | rfl | ⟨outcome, rfl, hnone⟩
  · rfl
  · exact current?_apply hw _ k
  · rw [current?_apply hw]
    cases outcome with
    | error e => rfl
    | ok r =>
      cases hholds : w.holding? n with
      | none => simp only [currentAfter, hholds]
      | some held =>
        -- A call that still holds its slot would have returned the record.
        obtain ⟨_, d, hcall', _, hphase⟩ := computing_of_holding? hholds
        cases hcall.symm.trans hcall'
        have hanswer := answer?_finish_ok hcall hphase r
        simp only [Call.computedAnswer, hintent, Answer.map] at hanswer
        exact absurd hanswer (hnone _ _)

/-- Where a call has returned a new record of a component, with the one that it displaced, the new
record is current in place of the old one, or was superseded and no record has been replaced. -/
theorem current?_landed {w : Workbench} {component : FilePath} {p : Phase}
    {outcome : Except BuildError Record} {previous : Option Record} {r : Record} (hw : Sound w)
    (hcall : w.calls[n]? = some ⟨⟨component, .dom⟩, .recompute, p⟩)
    (hanswer : (w.apply (.finish n outcome)).answer? n = some (.recomputed previous r)) (k : Key) :
    (w.apply (.finish n outcome)).cache.current? k = w.cache.current? k ∨
      Key.same ⟨component, .dom⟩ k ∧ previous = (w.cache.current? k).map Filed.record ∧
        ∃ t, (w.apply (.finish n outcome)).cache.current? k = some ⟨r, t⟩ := by
  rw [current?_apply hw]
  cases outcome with
  | error e => exact .inl rfl
  | ok record =>
    cases hholds : w.holding? n with
    | none => exact .inl (by simp only [currentAfter, hholds])
    | some held =>
      obtain ⟨l, t⟩ := held
      obtain ⟨call, d, hcall', rfl, hphase⟩ := computing_of_holding? hholds
      cases hcall.symm.trans hcall'
      cases (answer?_finish_ok hcall hphase record).symm.trans hanswer
      simp only [currentAfter, hholds]
      by_cases hsame : k.same ⟨component, .dom⟩
      · -- The slot was pending, so what the call displaced was current.
        have hslot := Key.same_iff.1 hsame
        have hcurrent := current?_of_computing hw hcall hphase (isPending_of_holding? hholds)
        have hold : w.cache.current? k = d := by
          rw [Cache.current?, Cache.content?_congr hslot]
          exact hcurrent
        rw [if_pos hsame, hold]
        exact .inr ⟨Key.same_iff.2 hslot.symm, rfl, some t, rfl⟩
      · rw [if_neg hsame]
        exact .inl rfl

/-! ## Turns of an answer -/

/-- The task answers to a change or has ended, and if it has not failed it has gathered the
modules. -/
def Keeps (s : Session) (i : Nat) (ids : List String) : Prop :=
  ∃ stage, s.stage? i = some stage ∧ stage.answersOrEnded ∧ stage.Holds ids

/-- What an answer has gathered stays gathered as it goes through what is still to be done. -/
theorem keeps_drain {file : FilePath} {affected ids : List String} {items : List UpdateItem}
    (hs : (s.stage? i).isSome) (hids : ∀ id ∈ ids, id ∈ affected) :
    (s.drain i file affected items).Keeps i ids := by
  have hdrained := drained_drain s i file affected items
  generalize s.drain i file affected items = after at hdrained ⊢
  cases hdrained with
  | ended htrims _ =>
    rw [← htrims.stage?] at hs
    exact ⟨_, stage?_setStage_self hs _, rfl, .inr hids⟩
  | @stopped s' component rest htrims _ =>
    rw [← htrims.stage?] at hs
    obtain ⟨making, hnow⟩ := stage?_startRecompute hs ⟨file, rest, affected⟩ component
    exact ⟨_, hnow, rfl, .inr hids⟩

/-- With a new record of a component landed, the modules that are stale by it are gathered too. -/
theorem keeps_reconcile {u : Update} {component : FilePath} {previous : Option Record} {r : Record}
    {ids : List String} (hs : (s.stage? i).isSome)
    (hids : ∀ id ∈ ids, id ∈ u.affected ∨ id ∈ s.staleIds component previous r) :
    (s.reconcile i u component previous r).Keeps i ids := by
  obtain ⟨y, htrims, hdrain⟩ := reconcile_eq s i u component previous r
  rw [← htrims.stage?] at hs
  rw [hdrain]
  exact keeps_drain hs fun id hid => mem_gather.2 (hids id hid)

/-- In a turn a task replaces the current record of a slot, by a new one of its component. If the
task has not failed, it has gathered the modules that are stale by that. -/
def Remakes (s : Session) (i : Nat) (k : Key) (s' : Session) : Prop :=
  ∃ (component : FilePath) (f' : Filed), Key.same ⟨component, .dom⟩ k ∧
    s'.bench.cache.current? k = some f' ∧
    s'.Keeps i (s.staleIds component ((s.bench.cache.current? k).map Filed.record) f'.record)

/-- What one turn of an answer makes of a session: it keeps what it has gathered, and for every
record of the browser's that it replaces it gathers the modules that are stale by that. -/
structure Informs (s : Session) (i : Nat) (old : Stage) (s' : Session) : Prop where
  keeps : ∀ {ids : List String}, old.Holds ids → s'.Keeps i ids
  current : ∀ {k : Key}, k.target = .dom →
    s'.bench.cache.current? k = s.bench.cache.current? k ∨ s.Remakes i k s'

/-- In its first turn an answer only drops records for the server, and begins to make a record. -/
theorem informs_startChange {file : FilePath} {timestamp : Nat} (hw : Sound s.bench)
    (hs : s.stage? i = some (.fresh (.change file timestamp))) :
    Informs s i (.fresh (.change file timestamp)) (s.startChange i file timestamp) := by
  refine ⟨fun {ids} h => ?_, fun hk => .inl (current?_startChange hw hk)⟩
  -- Nothing has been gathered before.
  have hnone := h.mem_gathered rfl
  have hended {y : Session} (htrims : Trims s y) (outcome : UpdateOutcome) :
      (y.endTask i (.updated outcome)).Keeps i ids := by
    refine ⟨_, stage?_setStage_self ?_ _, rfl, .inr fun id hid => absurd (hnone id hid) nofun⟩
    rw [htrims.stage?, hs]
    rfl
  unfold startChange
  split
  · exact hended (trims_refl s) _
  · split
    · exact hended (trims_say s _) _
    · have htrims := trims_receive s file timestamp
      change (if _ then (s.receive file timestamp).endTask i _ else
        (s.receive file timestamp).drain i file [] _).Keeps i ids
      split
      · exact hended htrims _
      · refine keeps_drain ?_ hnone
        rw [htrims.stage?, hs]
        rfl

/-- What a later turn of an answer makes of a session. -/
theorem informs_updating {u : Update} {component : FilePath} {making : Option Making}
    (hw : Sound s.bench) (hfits : (Stage.updating u component n making).Fits s.options s.bench)
    (hs : s.stage? i = some (.updating u component n making)) :
    Informs s i (.updating u component n making) (s.resume i) := by
  obtain ⟨p, hcall⟩ : ∃ p, s.bench.calls[n]? = some ⟨⟨component, .dom⟩, .recompute, p⟩ := by
    cases making with
    | none => exact hfits.elim fun _ hcall => ⟨_, hcall⟩
    | some _ => exact hfits.1.elim fun _ hcall => hcall.elim fun _ hcall => ⟨_, hcall⟩
  have hanswered := answered_resume hs
  generalize s.resume i = after at hanswered ⊢
  -- Only an answer that lands can replace a record, and it gathers what differs in the same turn.
  cases hanswered with
  | waits hstage hbench =>
    exact ⟨fun h => ⟨_, hstage, rfl, .inr (h.mem_gathered rfl)⟩,
      fun _ => .inl (current?_unrenewed hw hcall rfl hbench _)⟩
  | fails hstage hbench =>
    exact ⟨fun _ => ⟨_, hstage, rfl, .inl ⟨_, rfl⟩⟩,
      fun _ => .inl (current?_unrenewed hw hcall rfl hbench _)⟩
  | @lands y outcome previous r hbench hsome hanswer =>
    have hw' : Sound y.bench := hbench ▸ sound_step hw (step_apply _ _)
    refine ⟨fun h => keeps_reconcile hsome fun id hid => .inl (h.mem_gathered rfl id hid),
      fun {k} hk => ?_⟩
    have hcurrent := current?_reconcile (i := i) hw' hk u component previous r
    rw [hbench] at hanswer
    -- The record that lands is for the component; every other key is as it was.
    rcases current?_landed hw hcall hanswer k with hsame | ⟨hkey, rfl, t, hnew⟩
    · refine .inl (hcurrent.trans ?_)
      rw [hbench, hsame]
    · refine .inr ⟨component, ⟨r, t⟩, hkey, hcurrent.trans ?_,
        keeps_reconcile hsome fun id hid => .inr hid⟩
      rw [hbench, hnew]

/-! ## Runs -/

/-- The session does nothing but answer to changes. -/
structure Answering (s : Session) : Prop where
  attended : Attended s
  sound : Sound s.bench
  stages : ∀ {i : Nat} {stage : Stage}, s.stage? i = some stage → stage.answersOrEnded

/-- What one turn of an answer replaces, and what it gathers. -/
theorem informs_resume (h : Answering s) (hs : s.stage? i = some old) :
    Informs s i old (s.resume i) := by
  have hstays (hsame : s.resume i = s) : Informs s i old (s.resume i) := by
    rw [hsame]
    exact ⟨fun hids => ⟨old, hs, h.stages hs, hids⟩, fun _ => .inl rfl⟩
  -- The only tasks are answers to changes, and those that have ended take no turn.
  cases old with
  | fresh job =>
    cases job with
    | change file timestamp =>
      rw [resume_eq hs]
      exact informs_startChange h.sound hs
    | _ => cases h.stages hs
  | updating u component call making => exact informs_updating h.sound (h.attended.fits hs) hs
  | done result => exact hstays (resume_eq hs)
  | cancelled => exact hstays (resume_eq hs)
  | _ => cases h.stages hs

theorem answering_start (htasks : s.tasks = []) (hbench : s.bench = {}) {before : List Event}
    (hbefore : ∀ e ∈ before, e.putsNothing)
    (hended : ∀ i stage, (s.run before).stage? i = some stage → stage.hasEnded) :
    Answering (s.run before) where
  attended := attended_run (attended_start htasks) hbefore
  sound := sound_events hbench before
  stages hs := Stage.answersOrEnded_of_hasEnded (hended _ _ hs)

/-- What one event makes of what an answer has gathered. -/
theorem keeps_apply {e : Event} {ids : List String} (h : Answering s) (he : e.onlyChanges)
    (hkeeps : s.Keeps i ids) : (s.apply e).Keeps i ids := by
  obtain ⟨stage, hs, hanswers, hids⟩ := hkeeps
  by_cases hi : e.actor? = some i
  · cases e with
    | resume j =>
      cases hi
      exact (informs_resume h hs).keeps hids
    | cancel j => cases he
    | _ => cases hi
  · exact ⟨stage, stage?_apply_of_ne hs hi, hanswers, hids⟩

/-- An event of an answering session replaces a current record only if it is a turn of an answer. -/
theorem current?_apply_of_answering {e : Event} (h : Answering s) (he : e.onlyChanges)
    (hk : k.target = .dom) :
    (s.apply e).bench.cache.current? k = s.bench.cache.current? k ∨
      ∃ i, e = .resume i ∧ s.Remakes i k (s.apply e) := by
  cases e with
  | resume i =>
    change (s.resume i).bench.cache.current? k = _ ∨ ∃ j, _ ∧ s.Remakes j k (s.resume i)
    -- Besides turns, no event touches a record: edits and cancellations are not among them.
    cases hs : s.stage? i with
    | none =>
      have hnone : s.tasks[i]? = none := Option.map_eq_none_iff.1 hs
      exact .inl (by simp only [resume, hnone])
    | some old => exact ((informs_resume h hs).current hk).imp_right fun hnew => ⟨i, rfl, hnew⟩
  | resolve id importer target =>
    obtain ⟨resolver, journal, happly⟩ := apply_resolve s id importer target
    rw [happly]
    exact .inl rfl
  | cancel => cases he
  | close => cases he
  | edit => cases he
  | _ => exact .inl rfl

/-- What one event preserves. -/
theorem answering_apply {e : Event} (h : Answering s) (he : e.onlyChanges) :
    Answering (s.apply e) where
  attended := attended_apply h.attended (Event.putsNothing_of_onlyChanges he)
  sound := by
    obtain ⟨moves, hbench⟩ := bench_apply s e
    rw [hbench]
    exact sound_run h.sound moves
  stages := by
    intro i stage hstage
    rcases stage?_of_apply h.attended hstage with hold | ⟨name, job, rfl, rfl⟩
    · -- The task was there before, with nothing gathered at least.
      obtain ⟨old, hs⟩ := Option.isSome_iff_exists.1 hold
      have hkeeps : s.Keeps i [] := ⟨old, hs, h.stages hs, .inr nofun⟩
      obtain ⟨_, hnew, hanswers, _⟩ := keeps_apply h he hkeeps
      cases hstage.symm.trans hnew
      exact hanswers
    · cases job <;> first | rfl | cases he

/-- What an answer has gathered by the end of a turn it still has at the end of a run. -/
theorem keeps_run {ids : List String} (h : Answering s) (he : ∀ e ∈ events, e.onlyChanges)
    (hkeeps : s.Keeps i ids) : (s.run events).Keeps i ids := by
  induction events generalizing s with
  | nil => exact hkeeps
  | cons e events ih =>
    rw [List.forall_mem_cons] at he
    exact ih (answering_apply h he.1) he.2 (keeps_apply h he.1 hkeeps)

theorem answering_run (h : Answering s) (he : ∀ e ∈ events, e.onlyChanges) :
    Answering (s.run events) := by
  induction events generalizing s with
  | nil => exact h
  | cons e events ih =>
    rw [List.forall_mem_cons] at he
    exact ih (answering_apply h he.1) he.2

/-- In one of its turns in a run, a task replaces the current record of a slot. -/
def Replaces (s : Session) (events : List Event) (i : Nat) (k : Key) (f f' : Filed) : Prop :=
  ∃ ran rest : List Event, events = ran ++ .resume i :: rest ∧
    (s.run ran).bench.cache.current? k = some f ∧
    ((s.run ran).resume i).bench.cache.current? k = some f'

theorem Replaces.cons {e : Event} (h : (s.apply e).Replaces events i k f f') :
    s.Replaces (e :: events) i k f f' := by
  obtain ⟨ran, rest, rfl, hbefore, hafter⟩ := h
  exact ⟨e :: ran, rest, rfl, hbefore, hafter⟩

/-- An answer that has replaced a record by another one has the modules gathered in the end that are
stale by that, unless it has failed. -/
theorem keeps_of_replaces (h : Answering s) (he : ∀ e ∈ events, e.onlyChanges)
    (hk : k.target = .dom) (hreplaces : s.Replaces events i k f f') (hne : f ≠ f') :
    ∃ component : FilePath, component.components = k.file.components ∧
      (s.run events).Keeps i (s.staleIds component (some f.record) f'.record) := by
  obtain ⟨ran, rest, rfl, hbefore, hafter⟩ := hreplaces
  rw [List.forall_mem_append, List.forall_mem_cons] at he
  obtain ⟨hran, hturn, hrest⟩ := he
  have hthen := answering_run h hran
  rw [run_append]
  rcases current?_apply_of_answering hthen hturn hk with
    hsame | ⟨j, hj, component, g, hkey, hnew, hkeeps⟩
  · -- A turn that replaces no record leaves the same one there.
    cases (hbefore.symm.trans hsame.symm).trans hafter
    exact absurd rfl hne
  · cases hj
    cases hafter.symm.trans hnew
    rw [hbefore] at hkeeps
    have hlast := keeps_run (answering_apply hthen hturn) hrest hkeeps
    exact ⟨component, congrArg Prod.fst (Key.same_iff.1 hkey), hlast⟩

/-- A current record stays or is replaced. If something that is seen of it has changed in a run,
some answer has changed it in one of its turns. -/
theorem replaced_run {α : Type} (view : Record → α) (h : Answering s)
    (he : ∀ e ∈ events, e.onlyChanges) (hk : k.target = .dom)
    (hcurrent : s.bench.cache.current? k = some f) :
    ∃ f', (s.run events).bench.cache.current? k = some f' ∧
      (view f.record ≠ view f'.record → ∃ (i : Nat) (f₁ f₂ : Filed),
        s.Replaces events i k f₁ f₂ ∧ view f₁.record ≠ view f₂.record) := by
  induction events generalizing s f with
  | nil => exact ⟨f, hcurrent, fun hne => absurd rfl hne⟩
  | cons e events ih =>
    rw [List.forall_mem_cons] at he
    have hnext := answering_apply h he.1
    rcases current?_apply_of_answering h he.1 hk with hsame | ⟨i, rfl, _, f₁, _, hnew, _⟩
    · obtain ⟨f', hlast, hreplaced⟩ := ih hnext he.2 (hsame.trans hcurrent)
      refine ⟨f', hlast, fun hne => ?_⟩
      obtain ⟨i, g₁, g₂, hturn, hseen⟩ := hreplaced hne
      exact ⟨i, g₁, g₂, hturn.cons, hseen⟩
    · obtain ⟨f', hlast, hreplaced⟩ := ih hnext he.2 hnew
      refine ⟨f', hlast, fun hne => ?_⟩
      by_cases hseen : view f.record = view f₁.record
      · rw [hseen] at hne
        obtain ⟨i, g₁, g₂, hturn, hseen⟩ := hreplaced hne
        exact ⟨i, g₁, g₂, hturn.cons, hseen⟩
      · -- It is this turn that has changed what is seen.
        exact ⟨i, f, f₁, ⟨[], events, rfl, hcurrent, hnew⟩, hseen⟩

/-! ## What is returned -/

/-- A task has returned one of the modules as stale. -/
def Returns (s : Session) (i : Nat) (names : List String) : Prop :=
  ∃ ids, s.stage? i = some (.done (.updated (.affected ids))) ∧ ∃ id ∈ names, id ∈ ids

/-- What holds of the stages of all tasks, by looking at each. -/
theorem stages_of_all {p : Stage → Bool} (h : s.tasks.all fun t => p t.stage) (i : Nat)
    (stage : Stage) (hs : s.stage? i = some stage) : p stage := by
  obtain ⟨t, ht, rfl⟩ := Option.map_eq_some_iff.1 hs
  exact List.all_eq_true.1 h t (List.mem_of_getElem? ht)

/-- A task that has gathered a module returns it, unless it fails. -/
theorem returns_of_keeps {ids names : List String} {id : String} (h : s.Keeps i ids)
    (hended : ∀ i stage, s.stage? i = some stage → stage.hasEnded) (hid : id ∈ ids)
    (hname : id ∈ names) :
    s.Returns i names ∨ ∃ e, s.stage? i = some (.done (.failed e)) := by
  obtain ⟨stage, hs, -, ⟨e, rfl⟩ | hgathered⟩ := h
  · exact .inr ⟨e, hs⟩
  · have hmem := hgathered id hid
    have hdone := hended i stage hs
    unfold Stage.gathered at hmem
    split at hmem
    · cases hdone
    · next ids' => exact .inl ⟨ids', hs, id, hname, hmem⟩
    · cases hmem

/-- The text of the main module that is served for a request from a record. -/
def mainText (o : Options) (r : Request) (record : Record) : String := (mainCode o r record).text

/-- Where another main module is served from a new record, the main module is stale by that. -/
theorem mem_affected_of_mainText {o : Options} {r : Request} {previous next : Record}
    {main style : String} (h : mainText o r previous ≠ mainText o r next) :
    main ∈ (Change.classify previous next).affected main style := by
  unfold Change.classify
  split
  · exact List.mem_singleton_self _
  · next hsame =>
    -- The main module is made of the text and of whether there is a stylesheet.
    rw [not_or, not_not, not_not] at hsame
    refine absurd ?_ h
    simp only [mainText, mainCode, hsame.2]
    split
    · simp only [hsame.1]
    · exact hsame.1

/-- Where another stylesheet is served from a new record, it is stale by that, or the main module
is. -/
theorem mem_affected_of_cssText {previous next : Record} {main style : String}
    (h : Change.cssText previous ≠ Change.cssText next) :
    ∃ id ∈ [main, style], id ∈ (Change.classify previous next).affected main style := by
  rw [Change.classify, if_pos h]
  split
  · exact ⟨main, by simp, List.mem_singleton_self _⟩
  · exact ⟨style, by simp, List.mem_singleton_self _⟩

/-- Who reports what is seen to change. Take a session in which all tasks have ended, and from there
any run in which it does nothing but answer to changes, of any files, with the files changing in any
way and any compiles and reads failing, until all these answers have ended. A component whose record
is current at the start has a current record in the end. If the text of its main module, as it is
served for a request, or that of its stylesheet is another one by then, some answer has changed it
in one of its turns. And each answer that has changed the text of the main module in a turn has
returned the main module's identifier in the end, unless it has failed; each one that has changed
the text of the stylesheet has returned the identifier of the main module or of the stylesheet,
unless it has failed. -/
theorem visible_change_is_reported_unless_the_answer_fails (start : Session)
    (before events : List Event) (r : Request) (f : Filed) :
    let s := start.run before
    let s' := s.run events
    start.bench = {} → start.tasks = [] → (∀ e ∈ before, e.putsNothing) →
    (∀ i stage, s.stage? i = some stage → stage.hasEnded) →
    (∀ e ∈ events, e.onlyChanges) →
    (∀ i stage, s'.stage? i = some stage → stage.hasEnded) →
    r.target = .dom → s.bench.cache.current? r.key = some f →
    (∃ f', s'.bench.cache.current? r.key = some f' ∧
      (mainText start.options r f.record ≠ mainText start.options r f'.record →
        ∃ (i : Nat) (f₁ f₂ : Filed), s.Replaces events i r.key f₁ f₂ ∧
          mainText start.options r f₁.record ≠ mainText start.options r f₂.record) ∧
      (Change.cssText f.record ≠ Change.cssText f'.record →
        ∃ (i : Nat) (f₁ f₂ : Filed), s.Replaces events i r.key f₁ f₂ ∧
          Change.cssText f₁.record ≠ Change.cssText f₂.record)) ∧
    ∀ (i : Nat) (f₁ f₂ : Filed), s.Replaces events i r.key f₁ f₂ → f₁ ≠ f₂ →
      ∃ file : FilePath, file.components = r.file.components ∧
        (mainText start.options r f₁.record ≠ mainText start.options r f₂.record →
          s'.Returns i [mainId file] ∨ ∃ e, s'.stage? i = some (.done (.failed e))) ∧
        (Change.cssText f₁.record ≠ Change.cssText f₂.record →
          s'.Returns i [mainId file, styleId (requestFor start.options file .dom)] ∨
            ∃ e, s'.stage? i = some (.done (.failed e))) := by
  intro s s' hbench htasks hbefore hstart hevents hend hk hcurrent
  have hanswering : Answering s := answering_start htasks hbench hbefore hstart
  -- First that a difference between the ends shows up at one replacement, then what each
  -- replacement reports.
  constructor
  · obtain ⟨f', hlast, hmain⟩ :=
      replaced_run (mainText start.options r) hanswering hevents hk hcurrent
    obtain ⟨g, hlast', hcss⟩ := replaced_run Change.cssText hanswering hevents hk hcurrent
    cases hlast.symm.trans hlast'
    exact ⟨f', hlast, hmain, hcss⟩
  · intro i f₁ f₂ hreplaces hne
    obtain ⟨file, hfile, hkeeps⟩ := keeps_of_replaces hanswering hevents hk hreplaces hne
    refine ⟨file, hfile, fun hmain => ?_, fun hcss => ?_⟩
    · exact returns_of_keeps hkeeps hend (mem_affected_of_mainText hmain)
        (List.mem_singleton_self _)
    · obtain ⟨id, hname, hid⟩ := mem_affected_of_cssText hcss
      exact returns_of_keeps hkeeps hend hid hname

end Session

namespace Sample

/-- A component that others are made from. -/
def child : FilePath := ⟨"/app/Child.svelte"⟩

/-- A component that is made from it. -/
def parent : FilePath := ⟨"/app/Parent.svelte"⟩

/-- A session whose compiles end at once: both components are compiled, then the first one is
compiled once more, but the second one is not, and then both are. -/
def family : Session where
  options := { root := ⟨"/app"⟩ }
  disk := Disk.write (Disk.write {} child "child".toUTF8.toList) parent "parent".toUTF8.toList
  compiler := {
    kind := .driven
    queue := [.ok { js := ⟨"one", none⟩ }, .ok { js := ⟨"all", none⟩, dependencies := [child] },
      .ok { js := ⟨"two", none⟩ }, .error { message := "unexpected end" },
      .ok { js := ⟨"two", none⟩ }, .ok { js := ⟨"all", none⟩, dependencies := [child] }] }

/-- Both components are loaded. -/
def bothLoaded : List Session.Event :=
  [.start "child" (.transform child.text "child" .dom), .resume 0,
    .start "parent" (.transform parent.text "parent" .dom), .resume 1]

/-- The request for the main module of the first one. -/
def childMain : Request := requestFor family.options child .dom

/-- The first component changes twice. -/
def changedTwice : List Session.Event :=
  [.start "first" (.change child 1), .resume 2, .resume 2, .resume 2,
    .start "second" (.change child 2), .resume 3, .resume 3, .resume 3]

end Sample

namespace Session

/-- A change of the first component makes its record anew, but then the second one does not compile,
and the answer fails. The answer to the next change compares the new record with itself. Another
main module is served in the end, and no answer has returned any module. -/
theorem visible_change_is_reported_unless_the_answer_fails_lost :
    let r := Sample.childMain
    let s := Sample.family.run Sample.bothLoaded
    let s' := s.run Sample.changedTwice
    let served (f : Filed) := mainText Sample.family.options r f.record
    (s.bench.cache.current? r.key).map served = some "one" ∧
    (s'.bench.cache.current? r.key).map served = some "two" ∧
    (∀ i names, ¬ s'.Returns i names) ∧
    ∃ (i : Nat) (f f' : Filed) (e : BuildError),
      s.Replaces Sample.changedTwice i r.key f f' ∧ served f ≠ served f' ∧
        s'.stage? i = some (.done (.failed e)) := by
  -- The sessions are written out, as they are in what the theorem says of them.
  dsimp only
  have hone : ((Sample.family.run Sample.bothLoaded).bench.cache.current?
      Sample.childMain.key).map
        (mainText Sample.family.options Sample.childMain ·.record) = some "one" := by
    decide +kernel
  have htwo : (((Sample.family.run Sample.bothLoaded).run Sample.changedTwice).bench.cache.current?
      Sample.childMain.key).map
        (mainText Sample.family.options Sample.childMain ·.record) = some "two" := by
    decide +kernel
  have hsilent (i : Nat) (names : List String) :
      ¬ ((Sample.family.run Sample.bothLoaded).run Sample.changedTwice).Returns i names := by
    rintro ⟨ids, hs, id, _, hid⟩
    have hempty : ids.isEmpty :=
      stages_of_all (p := fun stage => stage.gathered.isEmpty) (by decide +kernel) i _ hs
    rw [List.isEmpty_iff.1 hempty] at hid
    cases hid
  obtain ⟨f, hcurrent, hbefore⟩ := Option.map_eq_some_iff.1 hone
  obtain ⟨⟨f', hlast, hmain, _⟩, hreports⟩ :=
    visible_change_is_reported_unless_the_answer_fails Sample.family Sample.bothLoaded
      Sample.changedTwice Sample.childMain f rfl rfl (by decide)
      (stages_of_all (by decide +kernel)) (by decide) (stages_of_all (by decide +kernel)) rfl
      hcurrent
  refine ⟨hone, htwo, hsilent, ?_⟩
  rw [hlast, Option.map_some] at htwo
  obtain ⟨i, f₁, f₂, hturn, hseen⟩ := hmain (by rw [hbefore, Option.some.inj htwo]; decide)
  have hother : f₁ ≠ f₂ := fun hsame => hseen (by rw [hsame])
  obtain ⟨_, _, hreported, _⟩ := hreports i f₁ f₂ hturn hother
  rcases hreported hseen with hreturns | ⟨e, hfailed⟩
  · exact absurd hreturns (hsilent i _)
  · exact ⟨i, f₁, f₂, e, hturn, hseen, hfailed⟩

end Session

end HotComponents
