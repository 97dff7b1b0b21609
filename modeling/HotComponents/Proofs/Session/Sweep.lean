import HotComponents.Proofs.Cache.Dependents
import HotComponents.Proofs.Cache.Swept
import HotComponents.Proofs.Session.Change
import HotComponents.Proofs.Session.Turns

/-!
# The course of an answer that meets no other compile

The answer to a change goes through what is to be done for it in order. With each component that it
has made anew, and with each of the server's dependents that it comes to, it empties a slot of the
server. While nothing else happens to the session, no other slot of the server is touched, and a
dependent of the browser's is always ready when the answer comes to it.

* `remade_resume`: what a turn makes of an answer that holds the ticket for its component;
* `sweeps_drain`: how the answer goes through what is still to be done;
* `sweeps_resume`, `sweeps_run`: how far it is, and what it has emptied by then.
-/

namespace HotComponents

open ModuleId

namespace UpdateItem

/-- The slot of the server that is empty once the item is done with. -/
def empties : UpdateItem → Key → Bool
  | component file, k => Key.same ⟨file, .ssr⟩ k
  | mention _, _ => false
  | dependent l, k => Key.same ⟨l.file, .ssr⟩ k

/-- The component that is made anew for an item. -/
def remakes? : UpdateItem → Option FilePath
  | component file => some file
  | mention _ => none
  | dependent l =>
    match l.target with
    | .dom => some l.file
    | .ssr => none

theorem remakes?_dependent {l : Key} {file : FilePath}
    (h : (dependent l).remakes? = some file) : l.target = .dom ∧ l.file = file := by
  unfold remakes? at h
  cases htarget : l.target <;> simp_all

/-- The slot that is emptied for a component that was made anew is the server's own of it. -/
theorem empties_of_remakes? {item : UpdateItem} {file : FilePath}
    (h : item.remakes? = some file) (k : Key) : item.empties k = Key.same ⟨file, .ssr⟩ k := by
  cases item with
  | component file' => cases h; rfl
  | mention count => cases h
  | dependent l =>
    obtain ⟨-, rfl⟩ := remakes?_dependent h
    rfl

end UpdateItem

namespace Session

open Workbench

variable {s y : Session} {i n t : Nat} {d : Option Filed} {file component : FilePath} {k : Key}
  {u : Update} {making : Making} {done rest : List UpdateItem} {affected : List String}

/-! ## Turns of an answer that meets no other compile -/

/-- Where no slot is pending, an answer that begins to make a component anew computes at once. -/
theorem startRecompute_of_idle (hs : (y.stage? i).isSome) (hidle : y.bench.cache.Idle) (u : Update)
    (component : FilePath) :
    let key : Key := ⟨component, .dom⟩
    let d := y.bench.cache.current? key
    (y.startRecompute i u component).stage? i =
        some (.updating u component y.bench.calls.length (some .reading)) ∧
      (y.startRecompute i u component).bench = ⟨y.bench.cache.issue key d,
        y.bench.calls ++ [⟨key, .recompute, .computing y.bench.cache.nextTicket d⟩]⟩ := by
  intro key d
  have hbench : (y.call key .recompute).1.bench = ⟨y.bench.cache.issue key d,
      y.bench.calls ++ [⟨key, .recompute, .computing y.bench.cache.nextTicket d⟩]⟩ :=
    recompute_of_idle hidle key
  -- An idle slot is claimed at once, so the task reads the component next.
  have hcomputes : (y.call key .recompute).1.bench.isComputing y.bench.calls.length = true := by
    simp [hbench, isComputing, phase?]
  have hstage : (y.startRecompute i u component).stage? i =
      some (.updating u component y.bench.calls.length
        (if (y.call key .recompute).1.bench.isComputing y.bench.calls.length
          then some .reading else none)) := by
    have hsome : ((y.call key .recompute).1.stage? i).isSome := hs
    exact stage?_setStage_self hsome _
  rw [hcomputes, if_pos rfl] at hstage
  exact ⟨hstage, hbench⟩

/-- What a turn makes of an answer that holds the ticket for its component, with the record that was
displaced for it: it goes on to make the new record, or has failed, or goes on behind the
component. -/
inductive Remade (s : Session) (i : Nat) (u : Update) (component : FilePath) (n : Nat)
    (d : Option Filed) : Session → Prop where
  | making {y : Session} {making : Making} (hbench : y.bench = s.bench)
      (hstage : y.stage? i = some (.updating u component n (some making))) :
      Remade s i u component n d y
  | failed {y : Session} {e : BuildError} (hbench : y.bench = s.bench.apply (.finish n (.error e)))
      (hstage : y.stage? i = some (.done (.failed e))) : Remade s i u component n d y
  | landed {y : Session} {r : Record} (hbench : y.bench = s.bench.apply (.finish n (.ok r)))
      (hsome : (y.stage? i).isSome) :
      Remade s i u component n d (y.reconcile i u component (d.map Filed.record) r)

section Turn

variable (hcall : s.bench.calls[n]? = some ⟨⟨component, .dom⟩, .recompute, .computing t d⟩)
include hcall

/-- A compute that ends in an error ends the answer. -/
theorem finishRecompute_error (hbench : y.bench = s.bench) (e : BuildError) :
    y.finishRecompute i u component n (.error e) =
      ((y.act (.finish n (.error e))).say [.note "error" e.message]).endTask i (.failed e) := by
  have hanswer := answer?_finish_error hcall rfl e
  rw [← hbench, ← bench_act] at hanswer
  simp only [finishRecompute, hanswer]

/-- With a new record the answer goes on, told what was displaced for it. -/
theorem finishRecompute_ok (hbench : y.bench = s.bench) (r : Record) :
    y.finishRecompute i u component n (.ok r) =
      (y.act (.finish n (.ok r))).reconcile i u component (d.map Filed.record) r := by
  have hanswer := answer?_finish_ok hcall rfl r
  rw [← hbench, ← bench_act] at hanswer
  simp only [finishRecompute, hanswer, Call.computedAnswer, Answer.map]

theorem remade_finishRecompute (hbench : y.bench = s.bench) (hsome : (y.stage? i).isSome)
    (outcome : Except BuildError Record) :
    Remade s i u component n d (y.finishRecompute i u component n outcome) := by
  have hfinished : (y.act (.finish n outcome)).bench = s.bench.apply (.finish n outcome) := by
    rw [bench_act, hbench]
  cases outcome with
  | error e =>
    rw [finishRecompute_error hcall hbench]
    exact .failed hfinished (stage?_setStage_self hsome _)
  | ok r =>
    rw [finishRecompute_ok hcall hbench]
    exact .landed hfinished hsome

/-- A compile that goes on is still being made, or its outcome ends this item. -/
theorem remade_progressRecompute (hbench : y.bench = s.bench) (hsome : (y.stage? i).isSome)
    (input : CompileInput) (progress : Progress) :
    Remade s i u component n d (y.progressRecompute i u component n input progress) := by
  cases progress with
  | suspended suspension => exact .making hbench (stage?_setStage_self hsome _)
  | ended result =>
    exact remade_finishRecompute (y := (y.judge input result).1) hcall hbench hsome _

/-- A turn with a component under way. -/
theorem remade_resume (hs : s.stage? i = some (.updating u component n (some making))) :
    Remade s i u component n d (s.resume i) := by
  have hsome : (s.stage? i).isSome := Option.isSome_of_eq_some hs
  rw [resume_eq hs]
  cases making with
  | reading =>
    change Remade s i u component n d (s.componentRead i u component n)
    unfold componentRead
    split
    · next code _ =>
      exact remade_progressRecompute (y := (s.startCompile component code .dom).1) hcall rfl hsome
        _ _
    · exact remade_finishRecompute hcall rfl hsome _
  | compiling c => exact remade_progressRecompute hcall rfl hsome _ _

/-- A new record that the answer has made is in its slot. -/
theorem cache_of_landed {r : Record} (hbench : y.bench = s.bench.apply (.finish n (.ok r))) :
    y.bench.cache =
      (s.bench.cache.redeem ⟨component, .dom⟩ t r).announce t (.record ⟨r, some t⟩) := by
  simp [hbench, Workbench.apply, hcall, Call.finish, update]

/-- Without a new record what was displaced for it is back in its slot. -/
theorem cache_of_failed {e : BuildError} (hbench : y.bench = s.bench.apply (.finish n (.error e))) :
    y.bench.cache =
      (s.bench.cache.surrender ⟨component, .dom⟩ t d).announce t .abandoned := by
  simp [hbench, Workbench.apply, hcall, Call.finish, update, Call.failureAnnouncement]

/-- The new record is the current one of its slot, and others stay. -/
theorem current?_of_remade {r : Record}
    (hpending : s.bench.cache.content? ⟨component, .dom⟩ = some (.pending t d))
    (hbench : y.bench = s.bench.apply (.finish n (.ok r))) (k : Key) :
    y.bench.cache.current? k =
      if k.slot = (⟨component, .dom⟩ : Key).slot then some ⟨r, some t⟩
      else s.bench.cache.current? k := by
  have howns : s.bench.cache.isPending ⟨component, .dom⟩ t := Cache.isPending_iff.2 ⟨d, hpending⟩
  rw [cache_of_landed hcall hbench]
  change (s.bench.cache.redeem ⟨component, .dom⟩ t r).current? k = _
  simp only [Cache.current?_redeem, howns, true_and]

/-- With the new record no slot is pending, if no other one was. -/
theorem idle_of_landed {r : Record}
    (hpending : s.bench.cache.content? ⟨component, .dom⟩ = some (.pending t d))
    (honly : ∀ (k : Key) (t' : Nat) (d' : Option Filed),
      s.bench.cache.content? k = some (.pending t' d') → k.slot = (⟨component, .dom⟩ : Key).slot)
    (hbench : y.bench = s.bench.apply (.finish n (.ok r))) : y.bench.cache.Idle := by
  rw [cache_of_landed hcall hbench]
  exact Cache.idle_redeem hpending honly r

end Turn

/-! ## How far the answer is -/

/-- What there is to do for a change of a file that is received now. -/
def itemsFor (s : Session) (file : FilePath) : List UpdateItem :=
  updateItems file (s.bench.cache.peek ⟨file, .dom⟩).isSome (s.bench.cache.dependents file)

/-- The slot of the server was emptied by the time that the items are done with: by one of them, or
before all of them, if it is the file's own and the file is not loaded. -/
def sweptBy (s : Session) (file : FilePath) (done : List UpdateItem) (k : Key) : Bool :=
  (!(s.bench.cache.peek ⟨file, .dom⟩).isSome && Key.same ⟨file, .ssr⟩ k) || done.any (·.empties k)

/-- How far the answer to a change has come that has met no other compile, and what it has left by
then of the cache that the change found. -/
inductive Sweeps (s : Session) (i : Nat) (file : FilePath) (timestamp : Nat) : Session → Prop where
  | fresh {y : Session} (hstage : y.stage? i = some (.fresh (.change file timestamp)))
      (hbench : y.bench = s.bench) (hoptions : y.options = s.options)
      (hseen : y.lastSeen = s.lastSeen) : Sweeps s i file timestamp y
  /-- It makes the component of an item anew, and no other slot is pending. -/
  | making {y : Session} {u : Update} {component : FilePath} {n t : Nat} {making : Making}
      {d : Option Filed} {done : List UpdateItem} {item : UpdateItem}
      (hitems : s.itemsFor file = done ++ item :: u.rest) (hfile : u.file = file)
      (hitem : item.remakes? = some component)
      (hstage : y.stage? i = some (.updating u component n (some making)))
      (hcall : y.bench.calls[n]? = some ⟨⟨component, .dom⟩, .recompute, .computing t d⟩)
      (hpending : y.bench.cache.content? ⟨component, .dom⟩ = some (.pending t d))
      (honly : ∀ (k : Key) (t' : Nat) (d' : Option Filed),
        y.bench.cache.content? k = some (.pending t' d') →
          k.slot = (⟨component, .dom⟩ : Key).slot)
      (hswept : s.bench.cache.Swept (s.sweptBy file done) y.bench.cache) :
      Sweeps s i file timestamp y
  | ended {y : Session} {outcome : UpdateOutcome}
      (hstage : y.stage? i = some (.done (.updated outcome)))
      (hswept : s.bench.cache.Swept (s.sweptBy file (s.itemsFor file)) y.bench.cache) :
      Sweeps s i file timestamp y
  /-- It has failed at the component of an item. -/
  | failed {y : Session} {e : BuildError} {component : FilePath} {done rest : List UpdateItem}
      {item : UpdateItem} (hitems : s.itemsFor file = done ++ item :: rest)
      (hitem : item.remakes? = some component) (hstage : y.stage? i = some (.done (.failed e)))
      (hswept : s.bench.cache.Swept (s.sweptBy file done) y.bench.cache) :
      Sweeps s i file timestamp y

/-- An answer that makes a component anew holds the ticket for it, and no other slot is pending. -/
theorem Sweeps.of_updating {timestamp : Nat} (h : Sweeps s i file timestamp y)
    (hs : y.stage? i = some (.updating u component n (some making))) :
    ∃ t d, y.bench.calls[n]? = some ⟨⟨component, .dom⟩, .recompute, .computing t d⟩ ∧
      y.bench.cache.content? ⟨component, .dom⟩ = some (.pending t d) ∧
      ∀ (k : Key) (t' : Nat) (d' : Option Filed),
        y.bench.cache.content? k = some (.pending t' d') →
          k.slot = (⟨component, .dom⟩ : Key).slot := by
  cases h with
  | making _ _ _ hstage hcall hpending honly _ =>
    cases hs.symm.trans hstage
    exact ⟨_, _, hcall, hpending, honly⟩
  | fresh hstage => cases hs.symm.trans hstage
  | ended hstage => cases hs.symm.trans hstage
  | failed _ _ hstage => cases hs.symm.trans hstage

/-- An answer that has ended well is through with all there is to do. -/
theorem Sweeps.of_updated {timestamp : Nat} {outcome : UpdateOutcome}
    (h : Sweeps s i file timestamp y) (hs : y.stage? i = some (.done (.updated outcome))) :
    s.bench.cache.Swept (s.sweptBy file (s.itemsFor file)) y.bench.cache := by
  cases h with
  | ended _ hswept => exact hswept
  | fresh hstage => cases hs.symm.trans hstage
  | making _ _ _ hstage => cases hs.symm.trans hstage
  | failed _ _ hstage => cases hs.symm.trans hstage

/-- An answer begins to make the component of an item anew while no slot is pending. -/
theorem sweeps_startRecompute {timestamp : Nat} {item : UpdateItem}
    (hitems : s.itemsFor file = done ++ item :: rest) (hitem : item.remakes? = some component)
    (hs : (y.stage? i).isSome) (hidle : y.bench.cache.Idle)
    (hswept : s.bench.cache.Swept (s.sweptBy file done) y.bench.cache) :
    Sweeps s i file timestamp (y.startRecompute i ⟨file, rest, affected⟩ component) := by
  obtain ⟨hstage, hbench⟩ := startRecompute_of_idle hs hidle ⟨file, rest, affected⟩ component
  refine .making (t := y.bench.cache.nextTicket)
    (d := y.bench.cache.current? ⟨component, .dom⟩) hitems rfl hitem hstage ?_ ?_ ?_ ?_
  · simp [hbench]
  · rw [hbench, Cache.content?_issue, if_pos rfl]
  · -- The cache was idle, so the claimed slot is the only pending one.
    intro k t' d' hp
    rw [hbench, Cache.content?_issue] at hp
    split at hp
    · next hslot => exact hslot
    · exact absurd hp (hidle k t' d')
  · rw [hbench]
    exact hswept.issue rfl

/-- An answer goes through what is still to be done while no slot is pending. -/
theorem sweeps_drain {timestamp : Nat} (hitems : s.itemsFor file = done ++ rest)
    (hs : (y.stage? i).isSome) (hidle : y.bench.cache.Idle)
    (hswept : s.bench.cache.Swept (s.sweptBy file done) y.bench.cache)
    (hthere : ∀ l, .dependent l ∈ rest → (s.bench.cache.current? l).isSome) :
    Sweeps s i file timestamp (y.drain i file affected rest) := by
  induction rest generalizing y done with
  | nil =>
    rw [List.append_nil] at hitems
    subst hitems
    exact .ended (stage?_setStage_self hs _) hswept
  | cons item rest ih =>
    have hmore : s.itemsFor file = (done ++ [item]) ++ rest := by simpa using hitems
    have hrest : ∀ l, .dependent l ∈ rest → (s.bench.cache.current? l).isSome :=
      fun l hl => hthere l (List.mem_cons_of_mem _ hl)
    cases item with
    | component component => exact sweeps_startRecompute hitems rfl hs hidle hswept
    | mention count =>
      have hsame : s.sweptBy file (done ++ [.mention count]) = s.sweptBy file done := by
        funext k
        simp [sweptBy, UpdateItem.empties]
      exact ih hmore hs hidle (hsame ▸ hswept) hrest
    | dependent l =>
      unfold drain
      split
      · next htarget =>
        have hself : (⟨l.file, .ssr⟩ : Key) = l := by rw [← htarget]
        have hmore' : s.sweptBy file (done ++ [.dependent l]) =
            fun k => s.sweptBy file done k || l.same k := by
          funext k
          simp [sweptBy, UpdateItem.empties, hself, Bool.or_assoc]
        refine ih (y := y.act (.invalidateKey l)) hmore hs (hidle.invalidateKey l) ?_ hrest
        rw [hmore']
        exact hswept.drop htarget
      · next htarget =>
        -- The dependent had a current record, so it has one now, and it is ready.
        have hcurrent := hswept.browser htarget (hthere l List.mem_cons_self)
        have hseen : (y.bench.cache.peek l).isSome := by
          obtain ⟨f, hf⟩ := Option.isSome_iff_exists.1 hcurrent
          rw [Cache.peek, hidle.content?_eq l, hf]
          rfl
        rw [if_pos hseen]
        have hremakes : (UpdateItem.dependent l).remakes? = some l.file := by
          simp only [UpdateItem.remakes?, htarget]
        exact sweeps_startRecompute hitems hremakes hs hidle hswept

/-- When the change is received, the file's own record for the server goes if the file is not
loaded. -/
theorem swept_receive (hbench : y.bench = s.bench) (hidle : s.bench.cache.Idle) (file : FilePath)
    (timestamp : Nat) :
    (y.receive file timestamp).bench.cache.Idle ∧
      s.bench.cache.Swept (s.sweptBy file []) (y.receive file timestamp).bench.cache := by
  have hrefl : s.bench.cache.Swept (fun _ => false) y.bench.cache := by
    rw [hbench]
    exact ⟨fun _ => rfl, fun _ hcurrent => hcurrent⟩
  rw [← hbench] at hidle
  unfold receive
  split
  · -- A component that is loaded loses its server record.
    next hloaded =>
    have hnone : s.sweptBy file [] = fun _ => false := by
      funext k
      simp [sweptBy, ← hbench, hloaded]
    exact ⟨hidle, hnone ▸ hrefl⟩
  · next hloaded =>
    have hown : s.sweptBy file [] = fun k => false || Key.same ⟨file, .ssr⟩ k := by
      funext k
      simp [sweptBy, ← hbench, hloaded]
    exact ⟨hidle.invalidateKey _, hown ▸ hrefl.drop rfl⟩

/-- What an answer needs to meet no other compile: no slot is pending when its change arrives, and
the file's dependents are those who use it. -/
structure Calm (s : Session) (file : FilePath) (timestamp : Nat) : Prop where
  hot : s.options.hot
  new : s.isStale file timestamp = false
  idle : s.bench.cache.Idle
  mirrors : s.bench.cache.Mirrors

variable {timestamp : Nat}

/-- Whoever depends on the changed file has a record that says so when the change arrives, and is
for another file. -/
theorem Calm.dependent (h : s.Calm file timestamp) {l : Key}
    (hl : .dependent l ∈ s.itemsFor file) :
    ∃ f, s.bench.cache.current? l = some f ∧ f.record.uses file ∧
      file.components ≠ l.file.components := by
  have hlisted : l ∈ s.bench.cache.dependents file := by
    unfold itemsFor updateItems at hl
    simp only [List.mem_append, List.mem_map, UpdateItem.dependent.injEq] at hl
    rcases hl with (hl | hl) | ⟨_, hl, rfl⟩
    · split at hl <;> simp at hl
    · split at hl <;> simp at hl
    · exact hl
  exact (Cache.mem_dependents h.mirrors).1 ⟨l, hlisted, rfl⟩

theorem Calm.isSome (h : s.Calm file timestamp) {l : Key} (hl : .dependent l ∈ s.itemsFor file) :
    (s.bench.cache.current? l).isSome := by
  obtain ⟨f, hf, -⟩ := h.dependent hl
  exact Option.isSome_of_eq_some hf

theorem Calm.other (h : s.Calm file timestamp) {l : Key} (hl : .dependent l ∈ s.itemsFor file) :
    file.components ≠ l.file.components := by
  obtain ⟨_, _, _, hother⟩ := h.dependent hl
  exact hother

/-- The first turn of an answer. -/
theorem sweeps_startChange (h : s.Calm file timestamp)
    (hs : y.stage? i = some (.fresh (.change file timestamp))) (hbench : y.bench = s.bench)
    (hoptions : y.options = s.options) (hseen : y.lastSeen = s.lastSeen) :
    Sweeps s i file timestamp (y.startChange i file timestamp) := by
  have hhot : y.options.hot := hoptions ▸ h.hot
  have hnew : y.isStale file timestamp = false := (isStale_congr hseen _ _).trans h.new
  obtain ⟨hidle, hswept⟩ := swept_receive hbench h.idle file timestamp
  have hsome : ((y.receive file timestamp).stage? i).isSome := by
    rw [(trims_receive y file timestamp).stage?, hs]
    rfl
  rw [startChange_eq hhot hnew, hbench]
  dsimp only
  split
  · next hnothing =>
    -- There is nothing to do.
    rw [Bool.and_eq_true, Bool.not_eq_true', List.isEmpty_iff] at hnothing
    have hnone : s.itemsFor file = [] := by
      rw [itemsFor, updateItems, hnothing.1, hnothing.2]
      rfl
    exact .ended (stage?_setStage_self hsome _) (hnone ▸ hswept)
  · have hitems : s.itemsFor file = [] ++ s.itemsFor file := rfl
    exact sweeps_drain hitems hsome hidle hswept fun l hl => h.isSome hl

/-- What a turn of the answer makes of it. -/
theorem sweeps_resume (h : s.Calm file timestamp) (hy : Sweeps s i file timestamp y) :
    Sweeps s i file timestamp (y.resume i) := by
  cases hy with
  | fresh hstage hbench hoptions hseen =>
    rw [resume_eq hstage]
    exact sweeps_startChange h hstage hbench hoptions hseen
  | @making u component n t making d done item hitems hfile hitem hstage hcall hpending honly
      hswept =>
    subst hfile
    have hremade := remade_resume hcall hstage
    generalize y.resume i = after at hremade ⊢
    cases hremade with
    | making hbench hstage' =>
      rw [← hbench] at hcall hpending honly hswept
      exact .making hitems rfl hitem hstage' hcall hpending honly hswept
    -- What was current before comes back, so nothing more has been dropped.
    | @failed _ e hbench hstage' =>
      refine .failed hitems hitem hstage' ?_
      rw [cache_of_failed hcall hbench]
      exact (hswept.surrender rfl hpending).keep (fun _ => rfl) fun _ hcurrent => hcurrent
    -- The new record takes the slot, and the component's server record goes.
    | @landed y' r hbench hsome =>
      have hidle := idle_of_landed hcall hpending honly hbench
      have hlanded : s.bench.cache.Swept (s.sweptBy u.file done) y'.bench.cache := by
        rw [cache_of_landed hcall hbench]
        exact (hswept.redeem rfl t r).keep (fun _ => rfl) fun _ hcurrent => hcurrent
      have hmore : s.sweptBy u.file (done ++ [item]) =
          fun k => s.sweptBy u.file done k || Key.same ⟨component, .ssr⟩ k := by
        funext k
        simp [sweptBy, UpdateItem.empties_of_remakes? hitem, Bool.or_assoc]
      have hrest : ∀ l, .dependent l ∈ u.rest → (s.bench.cache.current? l).isSome := by
        intro l hl
        refine h.isSome ?_
        rw [hitems]
        exact List.mem_append_right _ (List.mem_cons_of_mem _ hl)
      have hmoved : s.itemsFor u.file = (done ++ [item]) ++ u.rest := by simpa using hitems
      have hswept' : s.bench.cache.Swept (s.sweptBy u.file (done ++ [item]))
          (y'.bench.cache.invalidateKey ⟨component, .ssr⟩) := by
        rw [hmore]
        exact hlanded.drop rfl
      -- The rest of the items follow in the same turn, up to the next component to remake.
      exact sweeps_drain (y := (y'.act (.invalidateKey ⟨component, .ssr⟩)).say _) hmoved hsome
        (hidle.invalidateKey _) hswept' hrest
  | ended hstage hswept =>
    have hsame : y.resume i = y := resume_eq hstage
    rw [hsame]
    exact .ended hstage hswept
  | failed hitems hitem hstage hswept =>
    have hsame : y.resume i = y := resume_eq hstage
    rw [hsame]
    exact .failed hitems hitem hstage hswept

/-- The event is a turn of the task, or one that concerns no task. -/
def Event.isAlone (i : Nat) : Event → Bool
  | .resume j => j == i
  | .disk _ => true
  | .lineUp _ => true
  | .deliver _ _ => true
  | .resolve _ _ _ => true
  | .buildEnd => true
  | _ => false

theorem Sweeps.congr {y' : Session} (h : Sweeps s i file timestamp y) (htasks : y'.tasks = y.tasks)
    (hbench : y'.bench = y.bench) (hoptions : y'.options = y.options)
    (hseen : y'.lastSeen = y.lastSeen) : Sweeps s i file timestamp y' := by
  have hstage : y'.stage? i = y.stage? i := by rw [stage?, htasks]; rfl
  cases h with
  | fresh hs hb ho hl =>
    exact .fresh (hstage.trans hs) (hbench.trans hb) (hoptions.trans ho) (hseen.trans hl)
  | making hitems hfile hitem hs hcall hpending honly hswept =>
    rw [← hbench] at hcall hpending honly hswept
    exact .making hitems hfile hitem (hstage.trans hs) hcall hpending honly hswept
  | ended hs hswept => exact .ended (hstage.trans hs) (hbench ▸ hswept)
  | failed hitems hitem hs hswept =>
    exact .failed hitems hitem (hstage.trans hs) (hbench ▸ hswept)

/-- What one event preserves, where no other task takes a turn. -/
theorem sweeps_apply {e : Event} (h : s.Calm file timestamp) (he : e.isAlone i)
    (hy : Sweeps s i file timestamp y) : Sweeps s i file timestamp (y.apply e) := by
  cases e with
  | resume j =>
    rw [Event.isAlone, beq_iff_eq] at he
    subst he
    exact sweeps_resume h hy
  | resolve id importer target =>
    obtain ⟨resolver, journal, happly⟩ := apply_resolve y id importer target
    rw [happly]
    exact hy.congr rfl rfl rfl rfl
  | disk d => exact hy.congr rfl rfl rfl rfl
  | lineUp results => exact hy.congr rfl rfl rfl rfl
  | deliver number result => exact hy.congr rfl rfl rfl rfl
  | buildEnd => exact hy.congr rfl rfl rfl rfl
  | _ => cases he

/-- What a run makes of the answer in which nothing else happens. -/
theorem sweeps_run {events : List Event} (h : s.Calm file timestamp)
    (he : ∀ e ∈ events, e.isAlone i) (hy : Sweeps s i file timestamp y) :
    Sweeps s i file timestamp (y.run events) := by
  induction events generalizing y with
  | nil => exact hy
  | cons e events ih =>
    rw [List.forall_mem_cons] at he
    exact ih he.2 (sweeps_apply h he.1 hy)

end Session

end HotComponents
