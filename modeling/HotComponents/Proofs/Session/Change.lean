import HotComponents.Proofs.Cache.Renewal
import HotComponents.Proofs.Session.Moves

/-!
# What the answer to a change owes

A task that answers to a change of a file *owes* a slot as long as it is still to look at it or is
making a new record for it. It lets the slot go in one of two ways: a new record was made, or the
slot was pending when the task looked at it.

* `drained_drain`: how a task goes through what is still to be done;
* `firstTurn`, `answered_resume`: what the first turn of the task and each later one make of its debt.
-/

namespace HotComponents

open ModuleId

/-- The item is about the slot of a key. -/
def UpdateItem.concerns : UpdateItem → Key → Bool
  | component file, k => Key.same ⟨file, .dom⟩ k
  | mention _, _ => false
  | dependent l, k => l.same k

/-- The answer that is suspended at a stage makes a new record for the slot of a key or is still to
look at it. -/
def Stage.owes : Stage → Key → Bool
  | updating u component _ _, k => Key.same ⟨component, .dom⟩ k || u.rest.any (·.concerns k)
  | _, _ => false

/-- The task has had its first turn. -/
def Stage.hasBegun : Stage → Bool
  | fresh _ => false
  | _ => true

/-- The task has ended. -/
def Stage.hasEnded : Stage → Bool
  | done _ => true
  | cancelled => true
  | _ => false

/-- A task that has ended has no call. -/
theorem Session.stageCall?_of_hasEnded {stage : Stage} (h : stage.hasEnded) :
    stageCall? stage = none := by
  cases stage <;> first | rfl | cases h

/-- The answer has come to nothing. -/
def Stage.IsLost (stage : Stage) : Prop := stage = .cancelled ∨ ∃ e, stage = .done (.failed e)

/-- A lost task has ended. -/
theorem Stage.IsLost.hasEnded {stage : Stage} (h : stage.IsLost) : stage.hasEnded := by
  rcases h with rfl | ⟨_, rfl⟩ <;> rfl

/-- How the file is spelled does not matter to what is shown. -/
theorem Cache.peek_congr {c : Cache} {k l : Key} (h : k.slot = l.slot) : c.peek k = c.peek l := by
  rw [peek, peek, content?_congr h]

/-- What is shown is what the slot holds. -/
theorem Cache.ready_of_peek {c : Cache} {k : Key} {r : Record} (h : c.peek k = some r) :
    ∃ t, c.content? k = some (.ready ⟨r, t⟩) := by
  unfold Cache.peek at h
  split at h
  · next f hready =>
    cases h
    exact ⟨f.ticket?, hready⟩
  · cases h

namespace Session

open Workbench

variable {s s' s'' : Session} {i n first : Nat} {k : Key} {actor : Option Nat}

/-- The answer of a task owes the slot of a key: it is still to look at it or makes a new record for
it. Before its first turn it owes the slot of the changed file and those that depend on the file. -/
def owes (s : Session) (i : Nat) (k : Key) : Bool :=
  match s.stage? i with
  | some (.fresh (.change file _)) =>
    Key.same ⟨file, .dom⟩ k || (s.bench.cache.dependents file).any (·.same k)
  | some stage => stage.owes k
  | none => false

/-- The call of a task that makes a new record was made for that component since calls below `first`
were made. -/
def Linked (first : Nat) (i : Nat) (s : Session) : Prop :=
  ∀ (u : Update) (component : FilePath) (call : Nat) (making : Option Making),
    s.stage? i = some (.updating u component call making) →
    first ≤ call ∧ ∃ c, s.bench.calls[call]? = some c ∧ c.key = ⟨component, .dom⟩

/-! ## Moves of a session, seen from one slot -/

/-- What a task does keeps the workbench sound. -/
theorem Follows.sound (h : Follows actor s s') (hw : Sound s.bench) : Sound s'.bench := by
  obtain ⟨moves, hbench, _⟩ := h.moves
  rw [hbench]
  exact sound_run hw moves

/-- If no compute comes to nothing up to the later workbench, none has up to here. -/
theorem Follows.onlySucceeds (h : Follows actor s s') {w : Workbench} (hw : Sound s.bench)
    (hok : OnlySucceeds w s'.bench) : OnlySucceeds w s.bench := by
  obtain ⟨moves, hbench, _⟩ := h.moves
  rw [hbench] at hok
  exact onlySucceeds_of_run hw hok

/-- Nor does one come to nothing from here on. -/
theorem Follows.onlySucceeds_later (h : Follows actor s s') {w : Workbench} (hw : Sound s.bench)
    (hok : OnlySucceeds s.bench w) : OnlySucceeds s'.bench w := by
  obtain ⟨moves, hbench, _⟩ := h.moves
  rw [hbench]
  exact Workbench.onlySucceeds_later hw moves hok

/-- What a task does carries a slot of the browser, unless a compute comes to nothing. -/
theorem Follows.carries (h : Follows actor s s') (hk : k.target = .dom) (hw : Sound s.bench)
    (hok : OnlySucceeds s.bench s'.bench) : Carries k s.bench s'.bench := by
  obtain ⟨moves, hbench, hspare⟩ := h.moves
  rw [hbench] at hok ⊢
  exact carries_run hw (fun m hm => hspare m hm k hk) hok

/-- A session comes from another one by dropping records for the server. -/
structure Trims (s s' : Session) : Prop where
  tasks : s'.tasks = s.tasks
  calls : s'.bench.calls = s.bench.calls
  content : ∀ {k : Key}, k.target = .dom →
    s'.bench.cache.content? k = s.bench.cache.content? k
  sound : Sound s.bench → Sound s'.bench

/-- Nothing has happened. -/
theorem trims_refl (s : Session) : Trims s s := ⟨rfl, rfl, fun _ => rfl, id⟩

/-- What is trimmed twice is trimmed. -/
theorem Trims.trans (h : Trims s s') (h' : Trims s' s'') : Trims s s'' where
  tasks := h'.tasks.trans h.tasks
  calls := h'.calls.trans h.calls
  content hk := (h'.content hk).trans (h.content hk)
  sound hw := h'.sound (h.sound hw)

/-- Something is said. -/
theorem trims_say (s : Session) (notes : Journal) : Trims s (s.say notes) :=
  ⟨rfl, rfl, fun _ => rfl, id⟩

/-- A record for the server is dropped. -/
theorem trims_act {l : Key} (hl : l.target = .ssr) : Trims s (s.act (.invalidateKey l)) := by
  have hsound (hw : Sound s.bench) : Sound (s.bench.apply (.invalidateKey l)) :=
    sound_step hw (step_apply _ _)
  refine ⟨rfl, rfl, fun {k} hk => ?_, hsound⟩
  have htouch : (Move.invalidateKey l).touches k = false := Move.sparesDom_invalidateKey hl k hk
  have hedit : (s.bench.cache.edit (.invalidateKey l)).content? k =
      if (Move.invalidateKey l).touches k then none else s.bench.cache.content? k :=
    Cache.content?_edit _ _ _
  rwa [htouch] at hedit

/-- The tasks are where they were. -/
theorem Trims.stage? (h : Trims s s') (i : Nat) : s'.stage? i = s.stage? i := by
  rw [Session.stage?, h.tasks]
  rfl

/-- The browser's records are shown as before. -/
theorem Trims.peek (h : Trims s s') (hk : k.target = .dom) :
    s'.bench.cache.peek k = s.bench.cache.peek k := by
  rw [Cache.peek, Cache.peek, h.content hk]

/-! ## A component is made anew -/

/-- A task that begins to make a component anew is suspended on a call that is made for it now. -/
theorem stage?_startRecompute (hs : (s.stage? i).isSome) (u : Update) (component : FilePath) :
    ∃ making, (s.startRecompute i u component).stage? i =
      some (.updating u component s.bench.calls.length making) := by
  have hcalled : ((s.call ⟨component, .dom⟩ .recompute).1.stage? i).isSome := hs
  exact ⟨_, stage?_setStage_self hcalled _⟩

/-- A component begins to be made anew by a call that is made and resumed. -/
theorem bench_startRecompute (u : Update) (component : FilePath) :
    (s.startRecompute i u component).bench =
      (s.bench.apply (.make ⟨component, .dom⟩ .recompute)).apply (.resume s.bench.calls.length) :=
  rfl

/-- That call is a new one. -/
theorem linked_startRecompute (hs : (s.stage? i).isSome) (hfirst : first ≤ s.bench.calls.length)
    (u : Update) (component : FilePath) : Linked first i (s.startRecompute i u component) := by
  intro u' component' call making hstage
  obtain ⟨making', hnow⟩ := stage?_startRecompute hs u component
  rw [hnow] at hstage
  cases hstage
  refine ⟨hfirst, ?_⟩
  have hmade : (s.bench.apply (.make ⟨component, .dom⟩ .recompute)).calls[s.bench.calls.length]? =
      some { key := ⟨component, .dom⟩, intent := .recompute } := by
    simp [Workbench.apply]
  rw [bench_startRecompute]
  exact call_step (step_apply _ _) hmade

/-! ## What is still to be done -/

/-- How a task goes through what is still to be done: to the end, or up to a component that is made
anew. The browser's slots it is about are skipped only where nothing is to be seen in them. -/
inductive Drained (s : Session) (i : Nat) (file : FilePath) (affected : List String)
    (items : List UpdateItem) : Session → Prop where
  | ended {s' : Session} (htrims : Trims s s')
      (hskipped : ∀ k : Key, k.target = .dom → items.any (·.concerns k) →
        s.bench.cache.peek k = none) :
      Drained s i file affected items (s'.endTask i (.updated (.affected affected)))
  | stopped {s' : Session} {component : FilePath} {rest : List UpdateItem} (htrims : Trims s s')
      (hskipped : ∀ k : Key, k.target = .dom → items.any (·.concerns k) →
        (Key.same ⟨component, .dom⟩ k || rest.any (·.concerns k)) ∨
          s.bench.cache.peek k = none) :
      Drained s i file affected items (s'.startRecompute i ⟨file, rest, affected⟩ component)

/-- An item is skipped that is about no slot of the browser, or about one with nothing in it. -/
theorem Drained.skip {file : FilePath} {affected : List String} {item : UpdateItem}
    {items : List UpdateItem} (h : Drained s' i file affected items s'') (hs : Trims s s')
    (hitem : ∀ k : Key, k.target = .dom → item.concerns k → s.bench.cache.peek k = none) :
    Drained s i file affected (item :: items) s'' := by
  -- An item in which nothing is to be seen may be put before any list.
  cases h with
  | ended htrims hskipped =>
    refine .ended (hs.trans htrims) fun k hk h => ?_
    rw [List.any_cons, Bool.or_eq_true] at h
    rcases h with hhead | htail
    · exact hitem k hk hhead
    · rw [← hs.peek hk]
      exact hskipped k hk htail
  | stopped htrims hskipped =>
    refine .stopped (hs.trans htrims) fun k hk h => ?_
    rw [List.any_cons, Bool.or_eq_true] at h
    rcases h with hhead | htail
    · exact .inr (hitem k hk hhead)
    · rw [← hs.peek hk]
      exact hskipped k hk htail

/-- A list is worked off until it ends, or stops at a component that is made anew. -/
theorem drained_drain (s : Session) (i : Nat) (file : FilePath) (affected : List String)
    (items : List UpdateItem) :
    Drained s i file affected items (s.drain i file affected items) := by
  induction items generalizing s with
  | nil => exact .ended (trims_refl s) fun k _ h => by cases h
  | cons item rest ih =>
    cases item with
    | component component =>
      refine .stopped (trims_refl s) fun k _ h => .inl ?_
      rwa [List.any_cons] at h
    | mention count => exact (ih (s.say _)).skip (trims_say s _) fun k _ h => by cases h
    | dependent key =>
      unfold drain
      split
      · next htarget =>
        -- A record for the server is dropped, which is not about a slot of the browser.
        refine (ih (s.act (.invalidateKey key))).skip (trims_act htarget) fun k hk h => ?_
        rw [UpdateItem.concerns, ← Bool.not_eq_false] at h
        exact absurd (Move.sparesDom_invalidateKey htarget k hk) h
      · next htarget =>
        split
        · refine .stopped (trims_refl s) fun k _ h => .inl ?_
          have hkey : (⟨key.file, .dom⟩ : Key) = key := by rw [← htarget]
          rwa [List.any_cons, UpdateItem.concerns, ← hkey] at h
        · next hnone =>
          refine (ih s).skip (trims_refl s) fun k _ h => ?_
          rw [← Cache.peek_congr (Key.same_iff.1 h)]
          simpa using hnone

/-- Of what is still to be done, a slot is owed afterwards unless nothing was to be seen in it. -/
theorem drain_owes (hs : (s.stage? i).isSome) (file : FilePath) (affected : List String)
    (items : List UpdateItem) :
    ∃ stage, (s.drain i file affected items).stage? i = some stage ∧ stage.hasBegun ∧
      ∀ k : Key, k.target = .dom → items.any (·.concerns k) →
        stage.owes k ∨ s.bench.cache.peek k = none := by
  have hdrained := drained_drain s i file affected items
  generalize s.drain i file affected items = after at hdrained ⊢
  cases hdrained with
  | ended htrims hskipped =>
    rw [← htrims.stage?] at hs
    exact ⟨_, stage?_setStage_self hs _, rfl, fun k hk h => .inr (hskipped k hk h)⟩
  | @stopped s' component rest htrims hskipped =>
    rw [← htrims.stage?] at hs
    obtain ⟨making, hnow⟩ := stage?_startRecompute hs ⟨file, rest, affected⟩ component
    exact ⟨_, hnow, rfl, hskipped⟩

/-- Behind a list that is worked off, the call of the task is a new one if it has one. -/
theorem linked_drain (hs : (s.stage? i).isSome) (hfirst : first ≤ s.bench.calls.length)
    (file : FilePath) (affected : List String) (items : List UpdateItem) :
    Linked first i (s.drain i file affected items) := by
  have hdrained := drained_drain s i file affected items
  generalize s.drain i file affected items = after at hdrained ⊢
  cases hdrained with
  | ended htrims _ =>
    rw [← htrims.stage?] at hs
    intro u component call making hstage
    rw [endTask, stage?_setStage_self hs] at hstage
    cases hstage
  | stopped htrims _ =>
    rw [← htrims.stage?] at hs
    rw [← htrims.calls] at hfirst
    exact linked_startRecompute hs hfirst _ _

/-! ## Turns of the answer -/

/-- Seeing a change trims the session. -/
theorem trims_receive (s : Session) (file : FilePath) (timestamp : Nat) :
    Trims s (s.receive file timestamp) := by
  have hseen : Trims s (s.observe file timestamp) := ⟨rfl, rfl, fun _ => rfl, id⟩
  unfold receive
  split
  · exact hseen
  · exact hseen.trans (trims_act rfl)

/-- What a list is about: the file itself if it is loaded, and its dependents. -/
theorem any_updateItems {file : FilePath} {loaded : Bool} {dependents : List Key} :
    (updateItems file loaded dependents).any (·.concerns k) ↔
      loaded ∧ Key.same ⟨file, .dom⟩ k ∨ dependents.any (·.same k) := by
  unfold updateItems
  simp only [List.any_append, List.any_map, Bool.or_eq_true, Function.comp_def,
    UpdateItem.concerns]
  cases loaded <;> cases dependents <;> simp

/-- In its first turn an answer looks at all slots it owes, and lets go only of those in which
nothing is to be seen. -/
theorem firstTurn {file : FilePath} {timestamp : Nat}
    (hs : s.stage? i = some (.fresh (.change file timestamp))) (hhot : s.options.hot)
    (hnew : s.isStale file timestamp = false) :
    Linked s.bench.calls.length i (s.resume i) ∧
    ∃ stage, (s.resume i).stage? i = some stage ∧ stage.hasBegun ∧
      ∀ k : Key, k.target = .dom → s.owes i k →
        stage.owes k ∨ s.bench.cache.peek k = none := by
  have htrims := trims_receive s file timestamp
  have hsome : ((s.receive file timestamp).stage? i).isSome :=
    Option.isSome_of_eq_some ((htrims.stage? i).trans hs)
  have howes (k : Key) : s.owes i k ↔
      Key.same ⟨file, .dom⟩ k ∨ (s.bench.cache.dependents file).any (·.same k) := by
    simp only [owes, hs, Bool.or_eq_true]
  have hunseen (k : Key) (hpeek : ¬ (s.bench.cache.peek ⟨file, .dom⟩).isSome)
      (hown : Key.same ⟨file, .dom⟩ k) : s.bench.cache.peek k = none := by
    rw [← Cache.peek_congr (Key.same_iff.1 hown)]
    simpa using hpeek
  rw [resume_eq hs]
  change Linked _ i (s.startChange i file timestamp) ∧
    ∃ stage, (s.startChange i file timestamp).stage? i = some stage ∧ _
  rw [startChange_eq hhot hnew]
  dsimp only
  split
  · next hnothing =>
    -- Neither the file's own record is to be seen nor does any record depend on the file.
    rw [Bool.and_eq_true, Bool.not_eq_true', List.isEmpty_iff] at hnothing
    have hended := stage?_setStage_self hsome (.done (.updated .notLoaded))
    refine ⟨fun u component call making hstage => ?_, _, hended, rfl, fun k _ h => .inr ?_⟩
    · cases hended.symm.trans hstage
    rcases (howes k).1 h with hown | hdependent
    · exact hunseen k (by simp [hnothing.1]) hown
    · rw [hnothing.2] at hdependent
      cases hdependent
  · obtain ⟨stage, hstage, hbegun, hall⟩ := drain_owes hsome file [] _
    have hlinked := linked_drain hsome (Nat.le_of_eq (congrArg _ htrims.calls.symm)) file []
      (updateItems file (s.bench.cache.peek ⟨file, .dom⟩).isSome (s.bench.cache.dependents file))
    refine ⟨hlinked, stage, hstage, hbegun, fun k hk h => ?_⟩
    rw [← htrims.peek hk]
    -- The file's own component is on the list only if its record is to be seen.
    by_cases hpeek : (s.bench.cache.peek ⟨file, .dom⟩).isSome
    · exact hall k hk (any_updateItems.2 (((howes k).1 h).imp_left fun hown => ⟨hpeek, hown⟩))
    · rcases (howes k).1 h with hown | hdependent
      · exact .inr ((htrims.peek hk).trans (hunseen k hpeek hown))
      · exact hall k hk (any_updateItems.2 (.inr hdependent))

/-- A workbench behind a turn in which a call has not returned a new record: it is as it was, or the
call was resumed, or its compute has come to something else. -/
def Unrenewed (w : Workbench) (call : Nat) (w' : Workbench) : Prop :=
  w' = w ∨ w' = w.apply (.resume call) ∨
    ∃ outcome, w' = w.apply (.finish call outcome) ∧
      ∀ previous r, w'.answer? call ≠ some (.recomputed previous r)

/-- What a later turn makes of an answer that is at a component: it is still there, or has failed,
or a new record of the component has landed and the answer goes on. -/
inductive Answered (s : Session) (i : Nat) (u : Update) (component : FilePath) (call : Nat) :
    Session → Prop where
  | waits {s' : Session} {making : Option Making}
      (hstage : s'.stage? i = some (.updating u component call making))
      (hbench : Unrenewed s.bench call s'.bench) : Answered s i u component call s'
  | fails {s' : Session} {e : BuildError} (hstage : s'.stage? i = some (.done (.failed e)))
      (hbench : Unrenewed s.bench call s'.bench) : Answered s i u component call s'
  | lands {s' : Session} {outcome : Except BuildError Record} {previous : Option Record}
      {r : Record} (hbench : s'.bench = s.bench.apply (.finish call outcome))
      (hsome : (s'.stage? i).isSome)
      (hanswer : s'.bench.answer? call = some (.recomputed previous r)) :
      Answered s i u component call (s'.reconcile i u component previous r)

/-- The modules that are stale by a new record of a component. -/
def staleIds (s : Session) (component : FilePath) (previous : Option Record) (r : Record) :
    List String :=
  (Change.ofReplacement previous r).affected (mainId component)
    (styleId (requestFor s.options component .dom))

/-- With a new record of a component, an answer goes on to the rest, and the modules that are stale
by it are gathered. -/
theorem reconcile_eq (s : Session) (i : Nat) (u : Update) (component : FilePath)
    (previous : Option Record) (r : Record) : ∃ s', Trims s s' ∧
      s.reconcile i u component previous r =
        s'.drain i u.file (gather u.affected (s.staleIds component previous r)) u.rest :=
  ⟨_, (trims_act rfl).trans (trims_say _ _), rfl⟩

/-- The compute of a new record ends. -/
theorem answered_finishRecompute (s' : Session) {u : Update} {component : FilePath} {call : Nat}
    {making : Option Making} (hs : s'.stage? i = some (.updating u component call making))
    (hbench : s'.bench = s.bench) (outcome : Except BuildError Record) :
    Answered s i u component call (s'.finishRecompute i u component call outcome) := by
  have hfinished :
      (s'.act (.finish call outcome)).bench = s.bench.apply (.finish call outcome) := by
    rw [bench_act, hbench]
  have hsome : ((s'.act (.finish call outcome)).stage? i).isSome := Option.isSome_of_eq_some hs
  unfold finishRecompute
  dsimp only
  split
  · next previous r hanswer => exact .lands hfinished hsome hanswer
  · next e hanswer =>
    refine .fails (stage?_setStage_self hsome _) (.inr (.inr ⟨outcome, hfinished, ?_⟩))
    intro previous r hrecomputed
    cases hanswer.symm.trans hrecomputed
  · -- The call has returned neither a new record nor an error, so the task stays.
    next hnone _ => exact .waits hs (.inr (.inr ⟨outcome, hfinished, hnone⟩))

/-- A compile of a component has ended or is suspended. -/
theorem answered_progressRecompute (s' : Session) {u : Update} {component : FilePath} {call : Nat}
    {making : Option Making} (hs : s'.stage? i = some (.updating u component call making))
    (hbench : s'.bench = s.bench) (input : CompileInput) (progress : Progress) :
    Answered s i u component call (s'.progressRecompute i u component call input progress) := by
  cases progress with
  | ended result =>
    exact answered_finishRecompute (s'.judge input result).1 hs hbench _
  | suspended suspension =>
    exact .waits (stage?_setStage_self (Option.isSome_of_eq_some hs) _) (.inl hbench)

/-- A task that makes a component anew takes a turn. -/
theorem answered_resume {u : Update} {component : FilePath} {call : Nat} {making : Option Making}
    (hs : s.stage? i = some (.updating u component call making)) :
    Answered s i u component call (s.resume i) := by
  rw [resume_eq hs]
  -- It waits to compute, is about to read the text, or is suspended on the compile.
  match making with
  | none =>
    have hresumed : ((s.act (.resume call)).stage? i).isSome := Option.isSome_of_eq_some hs
    exact .waits (stage?_setStage_self hresumed _) (.inr (.inl rfl))
  | some .reading =>
    change Answered s i u component call (s.componentRead i u component call)
    unfold componentRead
    split
    · next code _ =>
      exact answered_progressRecompute (s := s) (s.startCompile component code .dom).1 hs rfl _ _
    · exact answered_finishRecompute s hs rfl _
  | some (.compiling c) => exact answered_progressRecompute s hs rfl _ _

/-! ## Tasks that have ended -/

/-- A task that has ended stays as it is. -/
theorem resume_of_hasEnded {stage : Stage} (hs : s.stage? i = some stage)
    (hended : stage.hasEnded) : s.resume i = s := by
  rw [resume_eq hs]
  unfold Stage.hasEnded at hended
  split at hended
  · rfl
  · rfl
  · cases hended

/-- What happens to a task that has ended leaves the session as it is. -/
theorem apply_of_hasEnded {stage : Stage} {e : Event} (hs : s.stage? i = some stage)
    (hended : stage.hasEnded) (hi : e.actor? = some i) : s.apply e = s := by
  cases e with
  | resume j =>
    cases hi
    exact resume_of_hasEnded hs hended
  | cancel j =>
    cases hi
    obtain ⟨t, ht, rfl⟩ := Option.map_eq_some_iff.1 hs
    simp only [apply, cancel, ht]
    unfold Stage.hasEnded at hended
    split at hended <;> simp_all
  | _ => cases hi

/-- A task that has ended stays as it is. -/
theorem ended_apply {stage : Stage} (hs : s.stage? i = some stage) (hended : stage.hasEnded)
    (e : Event) : (s.apply e).stage? i = some stage := by
  by_cases hi : e.actor? = some i
  · rwa [apply_of_hasEnded hs hended hi]
  · exact stage?_apply_of_ne hs hi

/-- It does so in any run. -/
theorem ended_run {stage : Stage} (hs : s.stage? i = some stage) (hended : stage.hasEnded)
    (events : List Event) : (s.run events).stage? i = some stage := by
  induction events generalizing s with
  | nil => exact hs
  | cons e events ih => exact ih (ended_apply hs hended e)

end Session

end HotComponents
