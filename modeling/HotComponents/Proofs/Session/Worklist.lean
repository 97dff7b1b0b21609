import HotComponents.Proofs.Session.Handling

/-!
# What a change leaves of all records

The answer to a change has a worklist of keys: the changed file's own one for the browser, if it has
a record, and the file's dependents in order. Whatever becomes of the dependents while the answer
goes through them, exactly the keys of this list are handled, from the first one to the last, or to
the one that the answer fails at. The records of all other keys stay as they are.

* `Drops`, `Leaves`: what is dropped, made anew and kept when some keys have been handled;
* `leaves_of_handled`: what is left behind some of what there is to do;
* `change_handles_its_worklist_in_order`: what is left in the end.
-/

namespace HotComponents

namespace UpdateItem

variable {item : UpdateItem} {file : FilePath} {k l : Key}

/-- The key that is handled with the item. -/
def key? : UpdateItem → Option Key
  | component file => some ⟨file, .dom⟩
  | mention _ => none
  | dependent l => some l

theorem key?_of_remakes? (h : item.remakes? = some file) : item.key? = some ⟨file, .dom⟩ := by
  cases item with
  | component file' =>
    cases h
    rfl
  | mention count => cases h
  | dependent l =>
    obtain ⟨htarget, rfl⟩ := remakes?_dependent h
    rw [← htarget]
    rfl

theorem remakes?_of_key? (h : item.key? = some l) (hl : l.target = .dom) :
    item.remakes? = some l.file := by
  cases item with
  | component file' =>
    cases h
    rfl
  | mention count => cases h
  | dependent l' =>
    cases h
    simp only [remakes?, hl]

/-- An item empties the server's slot of the file that its key is for. -/
theorem empties_iff (hk : k.target = .ssr) :
    item.empties k ↔ ∃ l, item.key? = some l ∧ l.file.components = k.file.components := by
  have hsame (p : FilePath) : Key.same ⟨p, .ssr⟩ k ↔ p.components = k.file.components := by
    rw [Key.same_iff, Key.slot, Key.slot, hk, Prod.mk.injEq]
    exact and_iff_left rfl
  cases item with
  | component file' => simp [empties, key?, hsame]
  | mention count => simp [empties, key?]
  | dependent l => simp [empties, key?, hsame]

end UpdateItem

namespace Session

open Workbench

variable {s y : Session} {i timestamp : Nat} {file component : FilePath} {k l : Key}
  {item : UpdateItem} {done rest : List UpdateItem} {affected : List String} {events : List Event}
  {log : List (FilePath × Record)} {c : Cache}

/-- What the answer to a change of a file has to handle: the file's own key for the browser, if it
has a record, and then the file's dependents. -/
def worklist (s : Session) (file : FilePath) : List Key :=
  (if (s.bench.cache.peek ⟨file, .dom⟩).isSome then [⟨file, .dom⟩] else []) ++
    s.bench.cache.dependents file

theorem filterMap_key?_itemsFor (s : Session) (file : FilePath) :
    (s.itemsFor file).filterMap UpdateItem.key? = s.worklist file := by
  have hdependents (dependents : List Key) :
      (dependents.map UpdateItem.dependent).filterMap UpdateItem.key? = dependents := by
    rw [List.filterMap_map]
    exact List.filterMap_some
  unfold itemsFor updateItems worklist
  rw [List.filterMap_append, List.filterMap_append, hdependents]
  congr 1
  split <;> split <;> rfl

/-! ## What is left behind some keys -/

/-- A change drops the record of a key when some keys have been handled: it is one for the server,
of a file that one of these keys is for, or of the changed file itself when that has no record for
the browser. -/
def Drops (s : Session) (file : FilePath) (handled : List Key) (k : Key) : Prop :=
  k.target = .ssr ∧ ((∃ l ∈ handled, l.file.components = k.file.components) ∨
    s.bench.cache.peek ⟨file, .dom⟩ = none ∧ file.components = k.file.components)

/-- What is left of the records that a change found when some keys have been handled by the task
that answers to it: the browser's ones of these have new records, each made in the run from a text
that was read of the file, the records to be dropped are gone, and all others are as they were. -/
structure Leaves (s : Session) (i : Nat) (events : List Event) (file : FilePath)
    (handled : List Key) (c : Cache) : Prop where
  remade : ∀ {l : Key}, l ∈ handled → l.target = .dom →
    ∃ r t, s.MadeIn i events l.file (.ok r) ∧ c.content? l = some (.ready ⟨r, t⟩)
  dropped : ∀ {k : Key}, s.Drops file handled k → c.content? k = none
  kept : ∀ {k : Key}, (∀ l ∈ handled, l.target = .dom → l.slot ≠ k.slot) →
    ¬ s.Drops file handled k → c.content? k = s.bench.cache.content? k

/-- The slots of the server that were swept by the time that some items are done with are those that
are dropped when their keys have been handled. -/
theorem sweptBy_iff_drops (hk : k.target = .ssr) :
    s.sweptBy file done k ↔ s.Drops file (done.filterMap UpdateItem.key?) k := by
  have hown : Key.same ⟨file, .ssr⟩ k ↔ file.components = k.file.components := by
    rw [Key.same_iff, Key.slot, Key.slot, hk, Prod.mk.injEq]
    exact and_iff_left rfl
  -- An item empties the server slot of the component that its key is for.
  have hone : done.any (·.empties k) ↔
      ∃ l ∈ done.filterMap UpdateItem.key?, l.file.components = k.file.components := by
    rw [List.any_eq_true]
    constructor
    · rintro ⟨item, hmem, hempties⟩
      obtain ⟨l, hl, hfile⟩ := (UpdateItem.empties_iff hk).1 hempties
      exact ⟨l, List.mem_filterMap.2 ⟨item, hmem, hl⟩, hfile⟩
    · rintro ⟨l, hl, hfile⟩
      obtain ⟨item, hmem, hkey⟩ := List.mem_filterMap.1 hl
      exact ⟨item, hmem, (UpdateItem.empties_iff hk).2 ⟨l, hkey, hfile⟩⟩
  rw [sweptBy, Bool.or_eq_true, Bool.and_eq_true, hone, hown, Drops, and_iff_right hk, or_comm]
  simp

theorem leaves_of_handled (hidle : s.bench.cache.Idle) (hlast : c.Idle)
    (hhandled : Handled s done log c affected)
    (hlog : ∀ entry ∈ log, s.MadeIn i events entry.1 (.ok entry.2))
    (hswept : s.bench.cache.Swept (s.sweptBy file done) c) :
    s.Leaves i events file (done.filterMap UpdateItem.key?) c where
  remade {l} hl htarget := by
    obtain ⟨item, hmem, hkey⟩ := List.mem_filterMap.1 hl
    have hlogged : l.file ∈ log.map Prod.fst := by
      rw [hhandled.components]
      exact List.mem_filterMap.2 ⟨item, hmem, UpdateItem.remakes?_of_key? hkey htarget⟩
    obtain ⟨entry, hentry, hfile⟩ := List.mem_map.1 hlogged
    have hself : (⟨entry.1, .dom⟩ : Key) = l := by rw [hfile, ← htarget]
    obtain ⟨f, hf, hrecord⟩ := Option.map_eq_some_iff.1 (hhandled.made hentry)
    refine ⟨entry.2, f.ticket?, hfile ▸ hlog entry hentry, ?_⟩
    rw [← hself, hlast.content?_eq, hf, ← hrecord]
    rfl
  dropped {k} hdrops := by
    rw [hswept.server hdrops.1, if_pos ((sweptBy_iff_drops hdrops.1).2 hdrops)]
  kept {k} hapart hnot := by
    cases htarget : k.target with
    | ssr => rw [hswept.server htarget, if_neg (fun h => hnot ((sweptBy_iff_drops htarget).1 h))]
    | dom =>
      rw [hlast.content?_eq, hidle.content?_eq, hhandled.kept htarget]
      intro item hmem
      cases hremakes : item.remakes? with
      | none => exact UpdateItem.concerns_of_remakes?_eq_none hremakes htarget
      | some component =>
        rw [UpdateItem.concerns_of_remakes? hremakes, ← Bool.not_eq_true, Key.same_iff]
        exact hapart _ (List.mem_filterMap.2 ⟨item, hmem, UpdateItem.key?_of_remakes? hremakes⟩) rfl

/-! ## Where an answer fails -/

/-- No key in front of a component that is made anew is for the component. -/
theorem file_ne_of_remakes? (h : s.Calm file timestamp)
    (hitems : s.itemsFor file = done ++ item :: rest) (hitem : item.remakes? = some component) :
    ∀ l ∈ done.filterMap UpdateItem.key?, l.file.components ≠ component.components := by
  intro l hl hfile
  obtain ⟨item', hmem, hkey⟩ := List.mem_filterMap.1 hl
  have hapart := not_empties_of_remakes? h hitems hitem item' hmem
  rw [← Bool.not_eq_true, UpdateItem.empties_iff rfl] at hapart
  exact hapart ⟨l, hkey, hfile⟩

/-- Both records of the component that the answer is at are still to be handled. -/
theorem Leaves.failing (h : s.Calm file timestamp)
    (hitems : s.itemsFor file = done ++ item :: rest) (hitem : item.remakes? = some component)
    (hleaves : s.Leaves i events file (done.filterMap UpdateItem.key?) c)
    (hk : k.file.components = component.components) :
    c.content? k = s.bench.cache.content? k := by
  have hapart := file_ne_of_remakes? h hitems hitem
  refine hleaves.kept ?_ ?_
  · intro l hl _ hslot
    exact hapart l hl ((congrArg Prod.fst hslot).trans hk)
  · rintro ⟨-, ⟨l, hl, hfile⟩ | ⟨hnone, hfile⟩⟩
    · exact hapart l hl (hfile.trans hk)
    · -- The changed file itself is made anew only if it has a record, and is no dependent.
      have hmem : item ∈ s.itemsFor file := by simp [hitems]
      cases item with
      | mention count => cases hitem
      | component file' =>
        have hloaded := (component_mem_itemsFor.1 hmem).1
        rw [hnone] at hloaded
        cases hloaded
      | dependent m =>
        obtain ⟨-, rfl⟩ := UpdateItem.remakes?_dependent hitem
        exact h.other hmem (hfile.trans hk)

/-! ## What is left in the end -/

/-- With the whole worklist the server's own slot of the changed file is emptied: the file is in the
list, or has no record for the browser. -/
theorem drops_own (s : Session) (file : FilePath) :
    s.Drops file (s.worklist file) ⟨file, .ssr⟩ := by
  refine ⟨rfl, ?_⟩
  cases hloaded : s.bench.cache.peek ⟨file, .dom⟩ with
  | none => exact .inr ⟨rfl, rfl⟩
  | some r => exact .inl ⟨⟨file, .dom⟩, by simp [worklist, hloaded], rfl⟩

/-- An answer that has ended well has handled its worklist. -/
theorem leaves_of_updated {outcome : UpdateOutcome} (h : s.Calm file timestamp)
    (hsweeps : Sweeps s i file timestamp y) (hhandles : Handles s i file timestamp events y)
    (hended : y.stage? i = some (.done (.updated outcome))) :
    s.Leaves i events file (s.worklist file) y.bench.cache := by
  cases hhandles with
  | ended _ hlast hhandled hlog =>
    rw [← filterMap_key?_itemsFor]
    exact leaves_of_handled h.idle hlast hhandled hlog (hsweeps.of_updated hended)
  | fresh hstage => cases hended.symm.trans hstage
  | making _ _ _ hstage => cases hended.symm.trans hstage
  | failed _ _ hstage => cases hended.symm.trans hstage

/-- An answer that has failed has handled its worklist up to the component that it failed at. -/
theorem leaves_of_failed {e : BuildError} (h : s.Calm file timestamp)
    (hhandles : Handles s i file timestamp events y)
    (hended : y.stage? i = some (.done (.failed e))) :
    ∃ handled failing rest, s.worklist file = handled ++ failing :: rest ∧
      failing.target = .dom ∧ s.MadeIn i events failing.file (.error e) ∧
      s.Leaves i events file handled y.bench.cache ∧
      ∀ k : Key, k.file.components = failing.file.components →
        y.bench.cache.content? k = s.bench.cache.content? k := by
  -- Of the stages an answer can be at, only one has failed.
  cases hhandles with
  | @failed e' component done rest item log affected hitems hitem hstage hlast hhandled hswept hlog
      hfailed =>
    cases hended.symm.trans hstage
    have hleaves := leaves_of_handled h.idle hlast hhandled hlog hswept
    refine ⟨_, ⟨component, .dom⟩, rest.filterMap UpdateItem.key?, ?_, rfl, hfailed, hleaves,
      fun k hk => hleaves.failing h hitems hitem hk⟩
    rw [← filterMap_key?_itemsFor, hitems, List.filterMap_append,
      List.filterMap_cons_some (UpdateItem.key?_of_remakes? hitem)]
  | fresh hstage => cases hended.symm.trans hstage
  | making _ _ _ hstage => cases hended.symm.trans hstage
  | ended hstage => cases hended.symm.trans hstage

theorem Handles.idle {result : TaskResult} (h : Handles s i file timestamp events y)
    (hended : y.stage? i = some (.done result)) : y.bench.cache.Idle := by
  cases h with
  | ended _ hlast => exact hlast
  | failed _ _ _ hlast => exact hlast
  | fresh hstage => cases hended.symm.trans hstage
  | making _ _ _ hstage => cases hended.symm.trans hstage

/-- The answer to a change handles the keys of its worklist one after the other, up to one that it
fails at, and touches no other record. Take a session as any run has left it, with no slot pending,
and let it receive a change that is not stale, with hot updates on; the worklist is what it is when
the answer is begun. While nothing else moves, whatever the files and the compiler do:
once the answer has ended well, each of the browser's keys in the worklist holds the record of a
compile of a text that the answer has read of the key's file, the server's slots of these files, of
the dependents' and of the changed file are vacant, and all other slots are as they were. If it has
failed, then at one of the browser's keys in the worklist: the keys in front of it have been handled
in this way, and all other slots, both ones of the failing component among them, are as they were,
but for the changed file's own for the server when it has no record for the browser. In either case
every slot holds a record or nothing, and whoever has a record that uses a file is listed as
depending on it. -/
theorem change_handles_its_worklist_in_order (start : Session) (before alone : List Event)
    (i : Nat) (file : FilePath) (timestamp : Nat) :
    let s := start.run before
    let last := s.run alone
    start.bench = {} → s.stage? i = some (.fresh (.change file timestamp)) → s.options.hot →
    s.isStale file timestamp = false → s.bench.cache.Idle → (∀ e ∈ alone, e.isAlone i) →
    (∀ outcome, last.stage? i = some (.done (.updated outcome)) →
      s.Leaves i alone file (s.worklist file) last.bench.cache ∧
        last.bench.cache.content? ⟨file, .ssr⟩ = none) ∧
    (∀ e, last.stage? i = some (.done (.failed e)) →
      ∃ handled failing rest, s.worklist file = handled ++ failing :: rest ∧
        failing.target = .dom ∧ s.MadeIn i alone failing.file (.error e) ∧
        s.Leaves i alone file handled last.bench.cache ∧
        ∀ k : Key, k.file.components = failing.file.components →
          last.bench.cache.content? k = s.bench.cache.content? k) ∧
    ∀ result, last.stage? i = some (.done result) →
      last.bench.cache.Idle ∧
      ∀ g : FilePath, (last.bench.cache.dependents g).Pairwise Key.Before ∧
        ∀ k : Key, (∃ l ∈ last.bench.cache.dependents g, l.slot = k.slot) ↔
          ∃ f, last.bench.cache.content? k = some (.ready f) ∧ f.record.uses g ∧
            g.components ≠ k.file.components := by
  intro s last hbench hs hhot hnew hidle halone
  have hmirrored (events : List Event) : (start.run events).bench.cache.Mirrors := by
    obtain ⟨moves, hrun⟩ := bench_run start events
    rw [hrun, hbench]
    exact mirrors_after moves
  have hcalm : s.Calm file timestamp := ⟨hhot, hnew, hidle, hmirrored before⟩
  have hsweeps : Sweeps s i file timestamp last :=
    sweeps_run hcalm halone (.fresh hs rfl rfl rfl)
  have hhandles : Handles s i file timestamp alone last := handles_run hcalm hs halone
  -- The answer went through the whole list, up to a failure, or ended in any way.
  refine ⟨?_, ?_, ?_⟩
  · intro outcome hended
    have hleaves := leaves_of_updated hcalm hsweeps hhandles hended
    exact ⟨hleaves, hleaves.dropped (drops_own s file)⟩
  · intro e hended
    exact leaves_of_failed hcalm hhandles hended
  · intro result hended
    have hlast := hhandles.idle hended
    have hmirrors : last.bench.cache.Mirrors := by
      have hrun : last = start.run (before ++ alone) := (run_append start before alone).symm
      rw [hrun]
      exact hmirrored _
    refine ⟨hlast, fun g => ⟨Graph.ascending_dependents hmirrors.agrees g, fun k => ?_⟩⟩
    rw [Cache.mem_dependents hmirrors, hlast.content?_eq]
    simp

end Session

namespace Sample

/-- A component and one that is made from it are loaded, and then the first one changes. -/
def childChanges : List Session.Event := bothLoaded ++ [.start "change" (.change child 1)]

end Sample

namespace Session

/-- The changed component is made anew, but then the one that is made from it does not compile, and
the answer fails there: the first one has been handled, and nothing else. -/
theorem change_handles_its_worklist_in_order_failed :
    let s := Sample.family.run Sample.childChanges
    let last := s.run [.resume 2, .resume 2, .resume 2]
    s.worklist Sample.child = [⟨Sample.child, .dom⟩, ⟨Sample.parent, .dom⟩] ∧
    s.Leaves 2 [.resume 2, .resume 2, .resume 2] Sample.child [⟨Sample.child, .dom⟩]
      last.bench.cache ∧
    ∃ e, last.stage? 2 = some (.done (.failed e)) ∧
      s.MadeIn 2 [.resume 2, .resume 2, .resume 2] Sample.parent (.error e) := by
  intro s last
  have hworklist : s.worklist Sample.child =
      [⟨Sample.child, .dom⟩, ⟨Sample.parent, .dom⟩] := by decide +kernel
  have hstart : s.stage? 2 = some (.fresh (.change Sample.child 1)) := by decide +kernel
  have hidle : s.bench.cache.Idle := Cache.idle_of_all (by decide +kernel)
  have hfailed : last.stage? 2 = some (.done (.failed
      (.compile ⟨Sample.parent, { message := "unexpected end" }⟩))) := by decide +kernel
  have hanew : (last.bench.cache.peek ⟨Sample.child, .dom⟩).map (·.js.text) ≠
      (s.bench.cache.peek ⟨Sample.child, .dom⟩).map (·.js.text) := by decide +kernel
  obtain ⟨handled, failing, rest, hsplit, -, hmade, hleaves, hsame⟩ :=
    (change_handles_its_worklist_in_order Sample.family Sample.childChanges
      [.resume 2, .resume 2, .resume 2] 2 Sample.child 1 rfl hstart (by decide +kernel)
      (by decide +kernel) hidle (by decide)).2.1 _ hfailed
  have hlist := hworklist.symm.trans hsplit
  cases handled with
  | nil =>
    -- The first one has another record than before, so the answer has not failed at it.
    obtain ⟨rfl, -⟩ := List.cons.inj hlist
    exact absurd (by rw [Cache.peek, Cache.peek, hsame ⟨Sample.child, .dom⟩ rfl]) hanew
  | cons l handled =>
    obtain ⟨rfl, htail⟩ := List.cons.inj hlist
    cases handled with
    | nil =>
      obtain ⟨rfl, -⟩ := List.cons.inj htail
      exact ⟨hworklist, hleaves, _, hfailed, hmade⟩
    | cons l handled => simp at htail

end Session

end HotComponents
