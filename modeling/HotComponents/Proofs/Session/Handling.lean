import HotComponents.Proofs.Session.Remaking

/-!
# What an answer has handled

The answer to a change goes through what is to be done for it, whatever the files and the compiler do
in the meantime. For each component that it comes to, it reads the source, has the text compiled and
stores the record, and gathers the modules that are stale by it; or it fails there, and then nothing
is left of the attempt. How far it has come is told by a log: the components that it has made anew by
then, in order, each with its new record.

* `attempts_resume`: what a turn makes of an answer that makes a component anew;
* `Handled`: the browser's records, and what was gathered, behind what is logged;
* `handles_drain`: how the answer goes through what is still to be done;
* `handles_resume`, `handles_run`: how far it is, and what it has handled by then.
-/

namespace HotComponents

open ModuleId

namespace Session

open Workbench

variable {s y z : Session} {i n t timestamp : Nat} {d : Option Filed} {file component : FilePath}
  {k : Key} {u : Update} {making : Making} {item : UpdateItem} {done rest : List UpdateItem}
  {affected : List String} {events : List Event} {log : List (FilePath × Record)} {r : Record}
  {read : String → Prop} {outcome : Except BuildError Record} {c c' : Cache}

/-! ## What a turn makes of a component -/

/-- In its next turn the task reads the source of a component that it makes anew. -/
def IsReading (s : Session) (i : Nat) (component : FilePath) : Prop :=
  ∃ (u : Update) (n : Nat), s.stage? i = some (.updating u component n (some .reading))

/-- In its next turn the task ends to make a component anew: its source cannot be read, or the
compile of a text that was read of it ends. -/
inductive Makes (s : Session) (i : Nat) (component : FilePath) (read : String → Prop) :
    Except BuildError Record → Prop where
  | unread (hreading : s.IsReading i component) (hnone : s.disk.read component = none) :
      Makes s i component read (.error (.unreadable component))
  | compiled {code : String} {result : CompileResult} (hread : read code)
      (hends : s.EndsCompile i (s.options.compileInput component code .dom) result) :
      Makes s i component read
        ((s.options.judge (s.options.compileInput component code .dom) result).mapError .compile)

/-- What a turn makes of an answer that makes a component anew: the compile of a text that was read
is suspended, or the compute ends. -/
inductive Attempts (s : Session) (i : Nat) (u : Update) (component : FilePath) (n : Nat)
    (read : String → Prop) : Session → Prop where
  | suspended {y : Session} {c : Compiling} {code : String} (htasks : y.tasks = s.tasks)
      (hbench : y.bench = s.bench) (hoptions : y.options = s.options) (hread : read code)
      (hinput : c.input = s.options.compileInput component code .dom) :
      Attempts s i u component n read
        (y.setStage i (.updating u component n (some (.compiling c))))
  | ended {y : Session} {outcome : Except BuildError Record} (htasks : y.tasks = s.tasks)
      (hbench : y.bench = s.bench) (hoptions : y.options = s.options)
      (hmakes : s.Makes i component read outcome) :
      Attempts s i u component n read (y.finishRecompute i u component n outcome)

theorem compiler_drain (y : Session) (i : Nat) (file : FilePath) (affected : List String)
    (items : List UpdateItem) : (y.drain i file affected items).compiler = y.compiler := by
  induction items generalizing y with
  | nil => rfl
  | cons item rest ih =>
    -- A component is only asked for here; its compile begins in a later turn.
    cases item with
    | component component => rfl
    | mention count => exact ih (y.say _)
    | dependent l =>
      unfold drain
      split
      · exact ih (y.act _)
      · split
        · rfl
        · exact ih y

theorem compiler_finishRecompute (y : Session) (i : Nat) (u : Update) (component : FilePath)
    (n : Nat) (outcome : Except BuildError Record) :
    (y.finishRecompute i u component n outcome).compiler = y.compiler := by
  unfold finishRecompute
  dsimp only
  split
  · exact compiler_drain _ _ _ _ _
  · rfl
  · rfl

theorem compiler_progressRecompute (y : Session) (i : Nat) (u : Update) (component : FilePath)
    (n : Nat) (input : CompileInput) (progress : Progress) :
    (y.progressRecompute i u component n input progress).compiler = y.compiler := by
  cases progress with
  | suspended suspension => rfl
  | ended result => exact compiler_finishRecompute (y.judge input result).1 _ _ _ _ _

/-- A compile that goes on is an attempt, with the text that was read. -/
theorem attempts_progressRecompute {code : String} (htasks : y.tasks = s.tasks)
    (hbench : y.bench = s.bench) (hoptions : y.options = s.options) (hread : read code)
    {progress : Progress} (hends : ∀ result, progress = .ended result →
      s.EndsCompile i (s.options.compileInput component code .dom) result) :
    Attempts s i u component n read
      (y.progressRecompute i u component n (s.options.compileInput component code .dom)
        progress) := by
  cases progress with
  | suspended suspension => exact .suspended htasks hbench hoptions hread rfl
  | ended result =>
    have hjudged : (y.judge (s.options.compileInput component code .dom) result).2 =
        (s.options.judge (s.options.compileInput component code .dom) result).mapError
          .compile := by
      rw [judge, hoptions]
    have hmakes := Makes.compiled hread (hends result rfl)
    rw [← hjudged] at hmakes
    exact .ended (y := (y.judge _ result).1) htasks hbench hoptions hmakes

/-- The turn of an answer that makes a component anew. -/
theorem attempts_resume (hs : s.stage? i = some (.updating u component n (some making)))
    (hreading : making = .reading → ∀ code, s.disk.read component = some code → read code)
    (hcompiling : ∀ c, making = .compiling c →
      ∃ code, read code ∧ c.input = s.options.compileInput component code .dom) :
    Attempts s i u component n read (s.resume i) := by
  have hresume := resume_eq hs
  rw [hresume]
  cases making with
  -- The text is read in this turn, and the compile begun with it.
  | reading =>
    change s.resume i = s.componentRead i u component n at hresume
    change Attempts s i u component n read (s.componentRead i u component n)
    unfold componentRead at hresume ⊢
    split
    · next code hcode =>
      rw [hcode] at hresume
      have hcompiler : (s.resume i).compiler =
          (s.compiler.start (s.options.compileInput component code .dom)).1 := by
        rw [hresume]
        exact compiler_progressRecompute _ _ _ _ _ _ _
      refine attempts_progressRecompute (s := s) (y := (s.startCompile component code .dom).1) rfl
        rfl rfl (hreading rfl code hcode) fun result hended => ?_
      exact .atOnce hs rfl (Prod.ext hcompiler.symm hended)
    · -- Nothing to read: the answer ends with that.
      next hnone => exact .ended rfl rfl rfl (.unread ⟨u, n, hs⟩ hnone)
  -- The text was read in an earlier turn.
  | compiling c =>
    obtain ⟨code, hread, hinput⟩ := hcompiling c rfl
    change Attempts s i u component n read (s.progressRecompute i u component n c.input _)
    rw [hinput]
    refine attempts_progressRecompute rfl rfl rfl hread fun result hended => ?_
    rw [← hinput] at hended ⊢
    exact .awaited hs rfl rfl hended

/-- In a run the task reads a text of a component that it makes anew. -/
def ReadIn (s : Session) (i : Nat) (events : List Event) (component : FilePath) (code : String) :
    Prop :=
  ∃ ran rest, events = ran ++ .resume i :: rest ∧ (s.run ran).IsReading i component ∧
    (s.run ran).disk.read component = some code

/-- In a run the task ends to make a component anew, in a record or in an error: the outcome of the
compile of a text that it has read of the component, or that the source cannot be read. -/
def MadeIn (s : Session) (i : Nat) (events : List Event) (component : FilePath)
    (outcome : Except BuildError Record) : Prop :=
  ∃ ran rest, events = ran ++ .resume i :: rest ∧
    (s.run ran).Makes i component (s.ReadIn i (ran ++ [.resume i]) component) outcome

theorem ReadIn.append {code : String} (h : s.ReadIn i events component code)
    (more : List Event) : s.ReadIn i (events ++ more) component code := by
  obtain ⟨ran, rest, rfl, hreading, hcode⟩ := h
  exact ⟨ran, rest ++ more, by rw [List.append_assoc, List.cons_append], hreading, hcode⟩

theorem MadeIn.append (h : s.MadeIn i events component outcome) (more : List Event) :
    s.MadeIn i (events ++ more) component outcome := by
  obtain ⟨ran, rest, rfl, hmakes⟩ := h
  exact ⟨ran, rest ++ more, by rw [List.append_assoc, List.cons_append], hmakes⟩

/-! ## Behind what is logged -/

/-- The modules that are stale by the components that a log tells of, in the order in which they are
gathered. -/
def staleBy (s : Session) (log : List (FilePath × Record)) : List String :=
  log.foldl (fun ids entry =>
    gather ids (s.staleIds entry.1 (s.bench.cache.peek ⟨entry.1, .dom⟩) entry.2)) []

/-- The identifiers of a log with one entry more. -/
theorem staleBy_concat (s : Session) (log : List (FilePath × Record))
    (entry : FilePath × Record) : s.staleBy (log ++ [entry]) =
      gather (s.staleBy log)
        (s.staleIds entry.1 (s.bench.cache.peek ⟨entry.1, .dom⟩) entry.2) := by
  simp [staleBy]

/-- What is left of a cache when an answer is done with some of what there is to do, and what the
answer has gathered by then: the log tells of the components of these items, and they have the
records that it tells of, while the browser's other records are as they were. -/
structure Handled (s : Session) (done : List UpdateItem) (log : List (FilePath × Record))
    (c : Cache) (affected : List String) : Prop where
  components : log.map Prod.fst = done.filterMap UpdateItem.remakes?
  made : ∀ {entry : FilePath × Record}, entry ∈ log →
    (c.current? ⟨entry.1, .dom⟩).map Filed.record = some entry.2
  kept : ∀ {k : Key}, k.target = .dom → (∀ item ∈ done, item.concerns k = false) →
    c.current? k = s.bench.cache.current? k
  gathered : affected = s.staleBy log

/-- At the outset nothing has been handled. -/
theorem handled_nil
    (hcurrent : ∀ k : Key, k.target = .dom → c.current? k = s.bench.cache.current? k) :
    Handled s [] [] c [] where
  components := rfl
  made hentry := by cases hentry
  kept hk _ := hcurrent _ hk
  gathered := rfl

theorem Handled.congr (h : Handled s done log c affected)
    (hcurrent : ∀ k : Key, k.target = .dom → c'.current? k = c.current? k) :
    Handled s done log c' affected where
  components := h.components
  made hentry := by
    rw [hcurrent _ rfl]
    exact h.made hentry
  kept hk hnone := (hcurrent _ hk).trans (h.kept hk hnone)
  gathered := h.gathered

/-- An item that makes nothing anew is done with. -/
theorem Handled.skip (h : Handled s done log c affected) (hitem : item.remakes? = none) :
    Handled s (done ++ [item]) log c affected where
  components := by
    rw [h.components, List.filterMap_append, List.filterMap_cons_none hitem, List.filterMap_nil,
      List.append_nil]
  made := h.made
  kept hk hnone := h.kept hk fun item' hmem => hnone item' (List.mem_append_left _ hmem)
  gathered := h.gathered

/-- The component of an item that is logged is in a slot that no other item is about. -/
theorem Handled.exists_item (h : Handled s done log c affected) {entry : FilePath × Record}
    (hentry : entry ∈ log) : ∃ item ∈ done, item.remakes? = some entry.1 := by
  have hmem : entry.1 ∈ log.map Prod.fst := List.mem_map_of_mem hentry
  rw [h.components] at hmem
  exact List.mem_filterMap.1 hmem

/-- The component of an item has been made anew, and the modules that are stale by that are
gathered. -/
theorem Handled.land (h : Handled s done log c affected) (hitem : item.remakes? = some component)
    (happart : ∀ item' ∈ done, item'.concerns ⟨component, .dom⟩ = false)
    (hnew : (c'.current? ⟨component, .dom⟩).map Filed.record = some r)
    (hother : ∀ k : Key, k.target = .dom → k.slot ≠ (⟨component, .dom⟩ : Key).slot →
      c'.current? k = c.current? k) :
    Handled s (done ++ [item]) (log ++ [(component, r)]) c'
      (gather affected
        (s.staleIds component (s.bench.cache.peek ⟨component, .dom⟩) r)) where
  components := by
    rw [List.map_append, h.components, List.filterMap_append, List.filterMap_cons_some hitem]
    rfl
  made {entry} hentry := by
    rcases List.mem_append.1 hentry with hold | hlast
    · -- Items before this one are for other slots, so their records are still there.
      obtain ⟨item', hmem, hremakes⟩ := h.exists_item hold
      have hapart := happart item' hmem
      rw [UpdateItem.concerns_of_remakes? hremakes, ← Bool.not_eq_true, Key.same_iff] at hapart
      rw [hother _ rfl hapart]
      exact h.made hold
    · cases List.mem_singleton.1 hlast
      exact hnew
  kept {k} hk hnone := by
    have hlast := hnone item (List.mem_append_right _ (List.mem_singleton_self _))
    -- A key that no item concerns is not the component's either.
    rw [UpdateItem.concerns_of_remakes? hitem, ← Bool.not_eq_true, Key.same_iff] at hlast
    rw [hother k hk (Ne.symm hlast)]
    exact h.kept hk fun item' hmem => hnone item' (List.mem_append_left _ hmem)
  gathered := by rw [staleBy_concat, h.gathered]

/-! ## How far the answer is -/

/-- How far the answer to a change has come that has met no other compile, and what it has handled by
then of what the change found. -/
inductive Handles (s : Session) (i : Nat) (file : FilePath) (timestamp : Nat)
    (events : List Event) : Session → Prop where
  | fresh {y : Session} (hstage : y.stage? i = some (.fresh (.change file timestamp)))
      (hbench : y.bench = s.bench) (hoptions : y.options = s.options)
      (hseen : y.lastSeen = s.lastSeen) : Handles s i file timestamp events y
  | making {y : Session} {u : Update} {component : FilePath} {n : Nat} {making : Making}
      {done : List UpdateItem} {item : UpdateItem} {log : List (FilePath × Record)}
      (hitems : s.itemsFor file = done ++ item :: u.rest) (hfile : u.file = file)
      (hitem : item.remakes? = some component)
      (hstage : y.stage? i = some (.updating u component n (some making)))
      (hread : ∀ c, making = .compiling c → ∃ code, s.ReadIn i events component code ∧
        c.input = y.options.compileInput component code .dom)
      (hoptions : y.options = s.options)
      (hhandled : Handled s done log y.bench.cache u.affected)
      (hlog : ∀ entry ∈ log, s.MadeIn i events entry.1 (.ok entry.2)) :
      Handles s i file timestamp events y
  | ended {y : Session} {outcome : UpdateOutcome} {log : List (FilePath × Record)}
      (hstage : y.stage? i = some (.done (.updated outcome))) (hidle : y.bench.cache.Idle)
      (hhandled : Handled s (s.itemsFor file) log y.bench.cache outcome.ids)
      (hlog : ∀ entry ∈ log, s.MadeIn i events entry.1 (.ok entry.2)) :
      Handles s i file timestamp events y
  /-- It has failed at the component of an item. -/
  | failed {y : Session} {e : BuildError} {component : FilePath} {done rest : List UpdateItem}
      {item : UpdateItem} {log : List (FilePath × Record)} {affected : List String}
      (hitems : s.itemsFor file = done ++ item :: rest) (hitem : item.remakes? = some component)
      (hstage : y.stage? i = some (.done (.failed e))) (hidle : y.bench.cache.Idle)
      (hhandled : Handled s done log y.bench.cache affected)
      (hswept : s.bench.cache.Swept (s.sweptBy file done) y.bench.cache)
      (hlog : ∀ entry ∈ log, s.MadeIn i events entry.1 (.ok entry.2))
      (hfailed : s.MadeIn i events component (.error e)) : Handles s i file timestamp events y

theorem handles_startRecompute (hitems : s.itemsFor file = done ++ item :: rest)
    (hitem : item.remakes? = some component) (hs : (y.stage? i).isSome)
    (hidle : y.bench.cache.Idle) (hoptions : y.options = s.options)
    (hhandled : Handled s done log y.bench.cache affected)
    (hlog : ∀ entry ∈ log, s.MadeIn i events entry.1 (.ok entry.2)) :
    Handles s i file timestamp events (y.startRecompute i ⟨file, rest, affected⟩ component) := by
  obtain ⟨hstage, hbench⟩ := startRecompute_of_idle hs hidle ⟨file, rest, affected⟩ component
  refine .making hitems rfl hitem hstage nofun hoptions (hhandled.congr fun k _ => ?_) hlog
  rw [hbench]
  exact current?_issue (hidle.content?_eq _) k

/-- An answer goes through what is still to be done while no slot is pending. -/
theorem handles_drain (h : s.Calm file timestamp) (hitems : s.itemsFor file = done ++ rest)
    (hs : (y.stage? i).isSome) (hidle : y.bench.cache.Idle) (hoptions : y.options = s.options)
    (hhandled : Handled s done log y.bench.cache affected)
    (hlog : ∀ entry ∈ log, s.MadeIn i events entry.1 (.ok entry.2)) :
    Handles s i file timestamp events (y.drain i file affected rest) := by
  induction rest generalizing y done with
  | nil =>
    rw [List.append_nil] at hitems
    subst hitems
    exact .ended (stage?_setStage_self hs _) hidle hhandled hlog
  | cons item rest ih =>
    have hmore : s.itemsFor file = (done ++ [item]) ++ rest := by simpa using hitems
    cases item with
    | component component => exact handles_startRecompute hitems rfl hs hidle hoptions hhandled hlog
    | mention count => exact ih (y := y.say _) hmore hs hidle hoptions (hhandled.skip rfl)
    | dependent l =>
      unfold drain
      split
      · next htarget =>
        have hnone : (UpdateItem.dependent l).remakes? = none := by
          simp only [UpdateItem.remakes?, htarget]
        have htrims : Trims y (y.act (.invalidateKey l)) := trims_act htarget
        exact ih (y := y.act (.invalidateKey l)) hmore hs (hidle.invalidateKey l) hoptions
          ((hhandled.skip hnone).congr fun k hk => htrims.current? hk)
      · next htarget =>
        have hremakes : (UpdateItem.dependent l).remakes? = some l.file := by
          simp only [UpdateItem.remakes?, htarget]
        have hself : (⟨l.file, .dom⟩ : Key) = l := by rw [← htarget]
        -- The record of the dependent is as it was when the dependents were listed.
        have hkept := hhandled.kept (k := ⟨l.file, .dom⟩) rfl
          (not_concerns_of_remakes? h hitems hremakes)
        rw [hself] at hkept
        have hthere : (y.bench.cache.peek l).isSome := by
          rw [hidle.peek_eq, hkept, Option.isSome_map]
          exact h.isSome (by simp [hitems])
        rw [if_pos hthere]
        exact handles_startRecompute hitems hremakes hs hidle hoptions hhandled hlog

/-- The first turn of an answer: it has handled nothing, or all items before the first that it
remakes. -/
theorem handles_startChange (h : s.Calm file timestamp)
    (hs : y.stage? i = some (.fresh (.change file timestamp))) (hbench : y.bench = s.bench)
    (hoptions : y.options = s.options) (hseen : y.lastSeen = s.lastSeen) :
    Handles s i file timestamp events (y.startChange i file timestamp) := by
  have hhot : y.options.hot := hoptions ▸ h.hot
  have hnew : y.isStale file timestamp = false := (isStale_congr hseen _ _).trans h.new
  obtain ⟨hidle, -⟩ := swept_receive hbench h.idle file timestamp
  have htrims := trims_receive y file timestamp
  have hsome : ((y.receive file timestamp).stage? i).isSome := by
    rw [htrims.stage?, hs]
    rfl
  have hreceived : (y.receive file timestamp).options = s.options := by
    rw [← hoptions]
    unfold receive
    split <;> rfl
  have hnothing : Handled s [] [] (y.receive file timestamp).bench.cache [] :=
    handled_nil fun k hk => by rw [htrims.current? hk, hbench]
  rw [startChange_eq hhot hnew, hbench]
  dsimp only
  split
  · next hnone =>
    -- There is nothing to do.
    rw [Bool.and_eq_true, Bool.not_eq_true', List.isEmpty_iff] at hnone
    have hitems : s.itemsFor file = [] := by
      rw [itemsFor, updateItems, hnone.1, hnone.2]
      rfl
    have hended := stage?_setStage_self hsome (.done (.updated .notLoaded))
    exact .ended hended hidle (hitems ▸ hnothing) (List.forall_mem_nil _)
  · have hitems : s.itemsFor file = [] ++ s.itemsFor file := rfl
    exact handles_drain h hitems hsome hidle hreceived hnothing (List.forall_mem_nil _)

/-- An answer goes on behind a component that has been made anew. -/
theorem handles_reconcile (h : s.Calm u.file timestamp)
    (hitems : s.itemsFor u.file = done ++ item :: u.rest) (hitem : item.remakes? = some component)
    (hcall : y.bench.calls[n]? = some ⟨⟨component, .dom⟩, .recompute, .computing t d⟩)
    (hpending : y.bench.cache.content? ⟨component, .dom⟩ = some (.pending t d))
    (honly : ∀ (k : Key) (t' : Nat) (d' : Option Filed),
      y.bench.cache.content? k = some (.pending t' d') → k.slot = (⟨component, .dom⟩ : Key).slot)
    (hhandled : Handled s done log y.bench.cache u.affected)
    (hlog : ∀ entry ∈ log, s.MadeIn i events entry.1 (.ok entry.2))
    (hmade : s.MadeIn i events component (.ok r)) (hoptions : z.options = s.options)
    (hbench : z.bench = y.bench.apply (.finish n (.ok r))) (hs : (z.stage? i).isSome) :
    Handles s i u.file timestamp events (z.reconcile i u component (d.map Filed.record) r) := by
  have hidle := idle_of_landed hcall hpending honly hbench
  have happart := not_concerns_of_remakes? h hitems hitem
  -- What was displaced is the record that the change found.
  have hdisplaced : d.map Filed.record = s.bench.cache.peek ⟨component, .dom⟩ := by
    rw [h.idle.peek_eq, ← hhandled.kept rfl happart, Cache.current?, hpending]
    rfl
  have htrims : Trims z (z.act (.invalidateKey ⟨component, .ssr⟩)) := trims_act rfl
  have hredeemed := current?_of_remade hcall hpending hbench
  have hlanded : Handled s (done ++ [item]) (log ++ [(component, r)])
      (z.act (.invalidateKey ⟨component, .ssr⟩)).bench.cache (gather u.affected
        (s.staleIds component (s.bench.cache.peek ⟨component, .dom⟩) r)) := by
    refine hhandled.land hitem happart ?_ fun k hk hslot => ?_
    · rw [htrims.current? rfl, hredeemed, if_pos rfl]
      rfl
    · rw [htrims.current? hk, hredeemed, if_neg hslot]
  have hids : (Change.ofReplacement (d.map Filed.record) r).affected (mainId component)
      (styleId (requestFor z.options component .dom)) =
        s.staleIds component (s.bench.cache.peek ⟨component, .dom⟩) r := by
    rw [hoptions, hdisplaced]
    rfl
  rw [← hids] at hlanded
  have hmore : s.itemsFor u.file = (done ++ [item]) ++ u.rest := by simpa using hitems
  refine handles_drain (y := (z.act (.invalidateKey ⟨component, .ssr⟩)).say _) h hmore hs
    (hidle.invalidateKey _) hoptions hlanded ?_
  intro entry hentry
  rcases List.mem_append.1 hentry with hold | hlast
  · exact hlog entry hold
  · cases List.mem_singleton.1 hlast
    exact hmade

/-- An answer that fails at a component has put back what was displaced for it. -/
theorem handles_of_failed {e : BuildError} (hitems : s.itemsFor file = done ++ item :: rest)
    (hitem : item.remakes? = some component)
    (hcall : y.bench.calls[n]? = some ⟨⟨component, .dom⟩, .recompute, .computing t d⟩)
    (hpending : y.bench.cache.content? ⟨component, .dom⟩ = some (.pending t d))
    (honly : ∀ (k : Key) (t' : Nat) (d' : Option Filed),
      y.bench.cache.content? k = some (.pending t' d') → k.slot = (⟨component, .dom⟩ : Key).slot)
    (hhandled : Handled s done log y.bench.cache affected)
    (hswept : s.bench.cache.Swept (s.sweptBy file done) y.bench.cache)
    (hlog : ∀ entry ∈ log, s.MadeIn i events entry.1 (.ok entry.2))
    (hmade : s.MadeIn i events component (.error e))
    (hbench : z.bench = y.bench.apply (.finish n (.error e)))
    (hstage : z.stage? i = some (.done (.failed e))) : Handles s i file timestamp events z := by
  have hcache := cache_of_failed hcall hbench
  refine .failed hitems hitem hstage ?_ (hhandled.congr fun k _ => ?_) ?_ hlog hmade <;> rw [hcache]
  · exact Cache.idle_surrender hpending honly
  · refine Cache.current?_surrender (fun _ => ?_) k
    rw [Cache.current?, hpending]
    rfl
  · exact (hswept.surrender rfl hpending).keep (fun _ => rfl) fun _ hcurrent => hcurrent

/-- What is known of an answer is known when something else has happened that leaves tasks, cache
and options alone. -/
theorem Handles.append {y' : Session} (h : Handles s i file timestamp events y)
    (more : List Event) (htasks : y'.tasks = y.tasks) (hbench : y'.bench = y.bench)
    (hoptions : y'.options = y.options) (hseen : y'.lastSeen = y.lastSeen) :
    Handles s i file timestamp (events ++ more) y' := by
  have hstage : y'.stage? i = y.stage? i := by rw [stage?, htasks]; rfl
  -- What was made in the shorter run was made in the longer one.
  have hlater {log : List (FilePath × Record)}
      (hlog : ∀ entry ∈ log, s.MadeIn i events entry.1 (.ok entry.2)) :
      ∀ entry ∈ log, s.MadeIn i (events ++ more) entry.1 (.ok entry.2) :=
    fun entry hentry => (hlog entry hentry).append more
  cases h with
  | fresh hs hb ho hl =>
    exact .fresh (hstage.trans hs) (hbench.trans hb) (hoptions.trans ho) (hseen.trans hl)
  | making hitems hfile hitem hs hread ho hhandled hlog =>
    refine .making hitems hfile hitem (hstage.trans hs) ?_ (hoptions.trans ho) (hbench ▸ hhandled)
      (hlater hlog)
    intro c hc
    obtain ⟨code, hcode, hinput⟩ := hread c hc
    exact ⟨code, hcode.append more, hoptions ▸ hinput⟩
  | ended hs hidle hhandled hlog =>
    exact .ended (hstage.trans hs) (hbench ▸ hidle) (hbench ▸ hhandled) (hlater hlog)
  | failed hitems hitem hs hidle hhandled hswept hlog hfailed =>
    exact .failed hitems hitem (hstage.trans hs) (hbench ▸ hidle) (hbench ▸ hhandled)
      (hbench ▸ hswept) (hlater hlog) (hfailed.append more)

/-- What a turn of the answer makes of it. -/
theorem handles_resume (h : s.Calm file timestamp)
    (hsweeps : Sweeps s i file timestamp (s.run events))
    (hy : Handles s i file timestamp events (s.run events)) :
    Handles s i file timestamp (events ++ [.resume i]) ((s.run events).resume i) := by
  cases hy with
  | fresh hstage hbench hoptions hseen =>
    rw [resume_eq hstage]
    exact handles_startChange h hstage hbench hoptions hseen
  | @making u component n making done item log hitems hfile hitem hstage hread hoptions hhandled
      hlog =>
    subst hfile
    have hlater : ∀ entry ∈ log, s.MadeIn i (events ++ [.resume i]) entry.1 (.ok entry.2) :=
      fun entry hentry => (hlog entry hentry).append _
    have hattempts : Attempts (s.run events) i u component n
        (s.ReadIn i (events ++ [.resume i]) component) ((s.run events).resume i) := by
      refine attempts_resume hstage ?_ fun c hc => ?_
      · rintro rfl code hcode
        exact ⟨events, [], rfl, ⟨u, n, hstage⟩, hcode⟩
      · obtain ⟨code, hcode, hinput⟩ := hread c hc
        exact ⟨code, hcode.append _, hinput⟩
    generalize (s.run events).resume i = last at hattempts ⊢
    cases hattempts with
    | @suspended z c code htasks hbench hsame hcode hinput =>
      have hsome : (z.stage? i).isSome := by
        rw [stage?, htasks]
        exact Option.isSome_of_eq_some hstage
      refine .making hitems rfl hitem (stage?_setStage_self hsome _) ?_ (hsame.trans hoptions)
        (hbench ▸ hhandled) hlater
      rintro c' ⟨⟩
      exact ⟨code, hcode, hsame ▸ hinput⟩
    | @ended z outcome htasks hbench hsame hmakes =>
      have hsome : (z.stage? i).isSome := by
        rw [stage?, htasks]
        exact Option.isSome_of_eq_some hstage
      have hmade : s.MadeIn i (events ++ [.resume i]) component outcome :=
        ⟨events, [], rfl, hmakes⟩
      cases hsweeps with
      | @making _ _ _ t _ d _ _ hitems' _ _ hstage' hcall hpending honly hswept =>
        cases hstage.symm.trans hstage'
        cases outcome with
        | error e =>
          rw [finishRecompute_error hcall hbench]
          -- Both tell of the same items, since the same ones are still to be done.
          obtain ⟨rfl, -⟩ := List.append_inj' (hitems'.symm.trans hitems) rfl
          exact handles_of_failed hitems hitem hcall hpending honly hhandled hswept hlater hmade
            (congrArg (·.apply (.finish n (.error e))) hbench) (stage?_setStage_self hsome _)
        | ok r =>
          rw [finishRecompute_ok hcall hbench]
          exact handles_reconcile (z := z.act (.finish n (.ok r))) h hitems hitem hcall hpending
            honly hhandled hlater hmade (hsame.trans hoptions)
            (congrArg (·.apply (.finish n (.ok r))) hbench) hsome
      | fresh hstage' => cases hstage.symm.trans hstage'
      | ended hstage' => cases hstage.symm.trans hstage'
      | failed _ _ hstage' => cases hstage.symm.trans hstage'
  | ended hstage hidle hhandled hlog =>
    have hsame : (s.run events).resume i = s.run events := resume_eq hstage
    rw [hsame]
    exact (Handles.ended hstage hidle hhandled hlog).append _ rfl rfl rfl rfl
  | failed hitems hitem hstage hidle hhandled hswept hlog hfailed =>
    have hsame : (s.run events).resume i = s.run events := resume_eq hstage
    rw [hsame]
    exact (Handles.failed hitems hitem hstage hidle hhandled hswept hlog hfailed).append _ rfl rfl
      rfl rfl

/-- What one event preserves, where no other task takes a turn. -/
theorem handles_apply {e : Event} (h : s.Calm file timestamp) (he : e.isAlone i)
    (hsweeps : Sweeps s i file timestamp (s.run events))
    (hy : Handles s i file timestamp events (s.run events)) :
    Handles s i file timestamp (events ++ [e]) ((s.run events).apply e) := by
  cases e with
  | resume j =>
    rw [Event.isAlone, beq_iff_eq] at he
    subst he
    exact handles_resume h hsweeps hy
  | resolve id importer target =>
    obtain ⟨resolver, journal, happly⟩ := apply_resolve (s.run events) id importer target
    rw [happly]
    exact hy.append _ rfl rfl rfl rfl
  | disk d => exact hy.append _ rfl rfl rfl rfl
  | lineUp results => exact hy.append _ rfl rfl rfl rfl
  | deliver number result => exact hy.append _ rfl rfl rfl rfl
  | buildEnd => exact hy.append _ rfl rfl rfl rfl
  | _ => cases he

/-- What a run makes of the answer in which nothing else happens. -/
theorem handles_run (h : s.Calm file timestamp)
    (hs : s.stage? i = some (.fresh (.change file timestamp)))
    (he : ∀ e ∈ events, e.isAlone i) : Handles s i file timestamp events (s.run events) := by
  induction events using List.reverseRecOn with
  | nil => exact .fresh hs rfl rfl rfl
  | append_singleton events e ih =>
    rw [List.forall_mem_append, List.forall_mem_singleton] at he
    have hsweeps : Sweeps s i file timestamp (s.run events) :=
      sweeps_run h he.1 (.fresh hs rfl rfl rfl)
    rw [run_append]
    exact handles_apply h he.2 hsweeps (ih he.1)

end Session

end HotComponents
