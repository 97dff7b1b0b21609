import HotComponents.Proofs.Cache.Spelled
import HotComponents.Proofs.Session.Failure
import HotComponents.Proofs.Session.Outlived
import HotComponents.Proofs.Session.Report

/-!
# What an answer makes of the browser's records

While nothing else happens to a session, the answer to a change goes through what is to be done for
it and makes the components anew from their sources, one after the other. Nothing else becomes of
the browser's records, and what it has gathered are the modules that are stale by the new ones.

* `resume_of_tries`: the turn of an answer that makes a component anew;
* `Behind`: records and gathered modules when some of what there is to do is done with;
* `gathers_drain`: how the answer goes through what is still to be done;
* `gathers_resume`, `gathers_run`: how far it is, and what it has made and gathered by then.
-/

namespace HotComponents

open ModuleId

namespace UpdateItem

/-- The slot of the browser that an item is about is that of the component that it makes anew. -/
theorem concerns_of_remakes? {item : UpdateItem} {file : FilePath}
    (h : item.remakes? = some file) (k : Key) : item.concerns k = Key.same ⟨file, .dom⟩ k := by
  cases item with
  | component file' =>
    cases h
    rfl
  | mention count => cases h
  | dependent l =>
    obtain ⟨htarget, rfl⟩ := remakes?_dependent h
    rw [← htarget]
    rfl

/-- An item that makes nothing anew is about no slot of the browser. -/
theorem concerns_of_remakes?_eq_none {item : UpdateItem} (h : item.remakes? = none) {k : Key}
    (hk : k.target = .dom) : item.concerns k = false := by
  cases item with
  | component file => cases h
  | mention count => rfl
  | dependent l =>
    have htarget : l.target = .ssr := by
      cases hl : l.target with
      | ssr => rfl
      | dom => simp [remakes?, hl] at h
    rw [concerns, ← Bool.not_eq_true, Key.same_iff]
    exact Key.slot_ne htarget hk

/-- An item that is about a slot of the browser makes the component of that slot anew. -/
theorem exists_remakes? {item : UpdateItem} {k : Key} (h : item.concerns k) (hk : k.target = .dom) :
    ∃ component, item.remakes? = some component ∧ (⟨component, .dom⟩ : Key).slot = k.slot := by
  cases hremakes : item.remakes? with
  | none =>
    rw [concerns_of_remakes?_eq_none hremakes hk] at h
    cases h
  | some component =>
    rw [concerns_of_remakes? hremakes] at h
    exact ⟨component, rfl, Key.same_iff.1 h⟩

/-- With a slot of the browser that an item is about, the server's slot of the same file is empty once
the item is done with. -/
theorem empties_of_concerns {item : UpdateItem} {file : FilePath}
    (h : item.concerns ⟨file, .dom⟩) : item.empties ⟨file, .ssr⟩ := by
  cases item with
  | mention count => cases h
  | component file' =>
    have hfile : file'.components = file.components := congrArg Prod.fst (Key.same_iff.1 h)
    exact Key.same_iff.2 (Prod.ext hfile rfl)
  | dependent l =>
    have hfile : l.file.components = file.components := congrArg Prod.fst (Key.same_iff.1 h)
    exact Key.same_iff.2 (Prod.ext hfile rfl)

end UpdateItem

/-- The turns that it takes at most to make a record that is being made. -/
def Making.turnsLeft (pauses : Nat) : Making → Nat
  | .reading => pauses + 2
  | .compiling ⟨_, .pausing left⟩ => left + 1
  | .compiling ⟨_, .awaiting _⟩ => 1

namespace Compiler

variable {c : Compiler} {pauses : Nat} {compile : CompileInput → CompileResult}
  {input : CompileInput} {suspension : Suspension}

theorem Obeys.suspension_of_start (h : c.Obeys pauses compile)
    (hsuspended : (c.start input).2 = .suspended suspension) : suspension = .pausing pauses := by
  simp only [Compiler.start, h.kind] at hsuspended
  split at hsuspended
  · cases hsuspended
  · exact (Progress.suspended.inj hsuspended).symm

theorem Obeys.suspension_of_resume (h : c.Obeys pauses compile) {left : Nat}
    (hsuspended : c.resume input (.pausing left) = .suspended suspension) :
    ∃ fewer, suspension = .pausing fewer ∧ fewer < left := by
  simp only [Compiler.resume, h.kind] at hsuspended
  split at hsuspended
  · exact ⟨left - 1, (Progress.suspended.inj hsuspended).symm, by omega⟩
  · cases hsuspended

end Compiler

namespace Session

open Workbench

variable {s y z : Session} {i n t pauses timestamp : Nat} {d : Option Filed}
  {file component : FilePath} {k : Key} {u : Update} {making : Making} {item : UpdateItem}
  {done rest : List UpdateItem} {affected : List String} {compile : CompileInput → CompileResult}
  {c c' : Cache} {r : Record}

/-! ## What a component is made into -/

/-- The record that a component is made into now, if its source can be read and the compiler follows
a rule that succeeds with it. -/
def makes? (s : Session) (compile : CompileInput → CompileResult) (component : FilePath) :
    Option Record :=
  (s.disk.read component).bind fun code =>
    ((s.options.judge (s.options.compileInput component code .dom)
      (compile (s.options.compileInput component code .dom))).toOption)

theorem file_of_judge {o : Options} {input : CompileInput} {result : CompileResult}
    (h : o.judge input result = .ok r) : r.file = input.file := by
  unfold Options.judge at h
  split at h
  · cases h
    rfl
  · cases h

/-- The new record is spelled like the component. -/
theorem file_of_makes? (h : s.makes? compile component = some r) : r.file = component := by
  obtain ⟨code, _, hr⟩ := Option.bind_eq_some_iff.1 h
  cases hjudge : s.options.judge (s.options.compileInput component code .dom)
    (compile (s.options.compileInput component code .dom)) with
  | error e =>
    rw [hjudge] at hr
    cases hr
  | ok r' =>
    rw [hjudge] at hr
    cases hr
    exact file_of_judge hjudge

/-- An answer to a change of a file finds options and files as they were, a compiler that follows
the rule, and the times of the other files as they were. -/
structure Steady (s : Session) (file : FilePath) (pauses : Nat)
    (compile : CompileInput → CompileResult) (y : Session) : Prop where
  options : y.options = s.options
  disk : y.disk = s.disk
  obeys : y.compiler.Obeys pauses compile
  seen : ∀ other : FilePath, other.components ≠ file.components →
    y.lastSeen? other = s.lastSeen? other

theorem Steady.congr (h : Steady s file pauses compile y) (hoptions : z.options = y.options)
    (hdisk : z.disk = y.disk) (hcompiler : z.compiler = y.compiler)
    (hseen : z.lastSeen = y.lastSeen) : Steady s file pauses compile z where
  options := hoptions.trans h.options
  disk := hdisk.trans h.disk
  obeys := hcompiler ▸ h.obeys
  seen other hother := by
    rw [lastSeen?, hseen]
    exact h.seen other hother

theorem steady_observe (h : Steady s file pauses compile y) (timestamp : Nat) :
    Steady s file pauses compile (y.observe file timestamp) where
  options := h.options
  disk := h.disk
  obeys := h.obeys
  seen other hother := by
    have hne : ¬ file.same other := fun hsame => hother (FilePath.same_iff.1 hsame).symm
    rw [lastSeen?_observe_other y hne]
    exact h.seen other hother

/-- An answer that compiles a component has read its source, and the compile pauses. -/
def Tries (s : Session) (component : FilePath) : Making → Prop
  | .reading => True
  | .compiling c => (∃ code, s.disk.read component = some code ∧
      c.input = s.options.compileInput component code .dom) ∧
      ∃ left, c.suspension = .pausing left

/-- What a turn makes of an answer that makes a component anew: the compile is suspended, and has a
turn less left to take, or it ends the compute, in the record that the component is made into or, if
it is made into none, in an error. -/
inductive Tried (s : Session) (i : Nat) (u : Update) (component : FilePath) (n pauses : Nat)
    (making : Making) (compile : CompileInput → CompileResult) (z : Session) : Session → Prop where
  | suspended {c : Compiling} (htries : s.Tries component (.compiling c))
      (hfewer : (Making.compiling c).turnsLeft pauses < making.turnsLeft pauses) :
      Tried s i u component n pauses making compile z
        (z.setStage i (.updating u component n (some (.compiling c))))
  | ended {outcome : Except BuildError Record}
      (hmakes : outcome.toOption = s.makes? compile component) :
      Tried s i u component n pauses making compile z (z.finishRecompute i u component n outcome)

/-- A compile that goes on has been tried, with fewer turns left if it is suspended again. -/
theorem tried_progressRecompute (hsteady : Steady s file pauses compile y) {code : String}
    (making : Making) (hread : s.disk.read component = some code) (progress : Progress)
    (hended : ∀ result, progress = .ended result →
      result = compile (s.options.compileInput component code .dom))
    (hsuspended : ∀ suspension, progress = .suspended suspension →
      ∃ left, suspension = .pausing left ∧ left + 1 < making.turnsLeft pauses) :
    ∃ z, z.tasks = y.tasks ∧ z.bench = y.bench ∧ Steady s file pauses compile z ∧
      Tried s i u component n pauses making compile z (y.progressRecompute i u component n
        (s.options.compileInput component code .dom) progress) := by
  cases progress with
  | suspended suspension =>
    obtain ⟨left, rfl, hfewer⟩ := hsuspended suspension rfl
    exact ⟨y, rfl, rfl, hsteady, .suspended ⟨⟨code, hread, rfl⟩, left, rfl⟩ hfewer⟩
  | ended result =>
    obtain rfl := hended result rfl
    refine ⟨(y.judge _ _).1, rfl, rfl, hsteady.congr rfl rfl rfl rfl, .ended ?_⟩
    rw [makes?, hread, Option.bind_some, ← hsteady.options]
    cases y.options.judge _ _ <;> rfl

/-- The turn of an answer that makes a component anew. -/
theorem resume_of_tries (hsteady : Steady s file pauses compile y)
    (htries : s.Tries component making)
    (hs : y.stage? i = some (.updating u component n (some making))) :
    ∃ z, z.tasks = y.tasks ∧ z.bench = y.bench ∧ Steady s file pauses compile z ∧
      Tried s i u component n pauses making compile z (y.resume i) := by
  rw [resume_eq hs]
  cases making with
  -- Reading the text and beginning the compile are one turn.
  | reading =>
    change ∃ z, _ ∧ _ ∧ _ ∧ Tried s i u component n pauses .reading compile z
      (y.componentRead i u component n)
    unfold componentRead
    split
    · next code hread =>
      rw [hsteady.disk] at hread
      have hinput : y.options.compileInput component code .dom =
          s.options.compileInput component code .dom := by rw [hsteady.options]
      have hstarted : Steady s file pauses compile (y.startCompile component code .dom).1 :=
        ⟨hsteady.options, hsteady.disk, hsteady.obeys.start _, hsteady.seen⟩
      have htried := tried_progressRecompute (i := i) (u := u) (n := n) hstarted .reading
        hread (y.compiler.start (y.options.compileInput component code .dom)).2
        (fun result hended => by
          rw [hinput] at hended
          exact hsteady.obeys.result_of_start hended)
        fun suspension hsuspended =>
          ⟨pauses, hsteady.obeys.suspension_of_start hsuspended, Nat.lt_succ_self _⟩
      rw [← hinput] at htried
      exact htried
    · next hread =>
      rw [hsteady.disk] at hread
      exact ⟨y, rfl, rfl, hsteady, .ended (by rw [makes?, hread]; rfl)⟩
  | compiling c =>
    obtain ⟨⟨code, hread, hinput⟩, left, hpausing⟩ := htries
    have hturns : (Making.compiling c).turnsLeft pauses = left + 1 := by
      obtain ⟨input, suspension⟩ := c
      cases hpausing
      rfl
    have htried := tried_progressRecompute (i := i) (u := u) (n := n) hsteady (.compiling c)
      hread (y.compiler.resume c.input c.suspension)
      (fun result hended => by
        rw [hinput] at hended
        exact hsteady.obeys.result_of_resume hended)
      fun suspension hsuspended => by
        rw [hpausing] at hsuspended
        -- Each further suspension is for fewer pauses.
        obtain ⟨fewer, hfewer, hless⟩ := hsteady.obeys.suspension_of_resume hsuspended
        exact ⟨fewer, hfewer, by omega⟩
    rw [← hinput] at htried
    exact htried

/-! ## Behind some of what there is to do -/

/-- What is left of a cache when an answer is done with some of what there is to do, and what the
answer has gathered by then: the components of these items have been made anew, and the other
records of the browser are as they were. -/
structure Behind (s : Session) (compile : CompileInput → CompileResult) (done : List UpdateItem)
    (c : Cache) (affected : List String) : Prop where
  made : ∀ {item : UpdateItem} {component : FilePath}, item ∈ done →
    item.remakes? = some component →
    ∃ r, s.makes? compile component = some r ∧
      (c.current? ⟨component, .dom⟩).map Filed.record = some r
  kept : ∀ {k : Key}, k.target = .dom → (∀ item ∈ done, item.concerns k = false) →
    (c.current? k).map Filed.record = s.bench.cache.peek k
  gathered : ∀ {id : String}, id ∈ affected ↔
    ∃ item component previous r, item ∈ done ∧ item.remakes? = some component ∧
      s.bench.cache.peek ⟨component, .dom⟩ = some previous ∧
      s.makes? compile component = some r ∧ id ∈ s.staleIds component (some previous) r

/-- At the outset no item lies behind the answer. -/
theorem behind_nil (hidle : s.bench.cache.Idle)
    (hcurrent : ∀ k : Key, k.target = .dom → c.current? k = s.bench.cache.current? k) :
    Behind s compile [] c [] where
  made hitem := by cases hitem
  kept {k} hk _ := by rw [hcurrent k hk, hidle.peek_eq]
  gathered := by simp

theorem Behind.congr (h : Behind s compile done c affected)
    (hcurrent : ∀ k : Key, k.target = .dom → c'.current? k = c.current? k) :
    Behind s compile done c' affected where
  made hitem hremakes := by
    rw [hcurrent _ rfl]
    exact h.made hitem hremakes
  kept hk hnone := by
    rw [hcurrent _ hk]
    exact h.kept hk hnone
  gathered := h.gathered

/-- An item that makes nothing anew is done with. -/
theorem Behind.skip (h : Behind s compile done c affected) (hitem : item.remakes? = none) :
    Behind s compile (done ++ [item]) c affected where
  made {item' component'} hmem hremakes := by
    rcases List.mem_append.1 hmem with hdone | hlast
    · exact h.made hdone hremakes
    · -- The item that is skipped remakes nothing, so it adds no identifiers.
      cases List.mem_singleton.1 hlast
      rw [hitem] at hremakes
      cases hremakes
  kept hk hnone := h.kept hk fun item' hmem => hnone item' (List.mem_append_left _ hmem)
  gathered {id} := by
    rw [h.gathered]
    constructor
    · rintro ⟨item', component', previous, r, hmem, hrest⟩
      exact ⟨item', component', previous, r, List.mem_append_left _ hmem, hrest⟩
    · rintro ⟨item', component', previous, r, hmem, hremakes, hrest⟩
      rcases List.mem_append.1 hmem with hdone | hlast
      · exact ⟨item', component', previous, r, hdone, hremakes, hrest⟩
      · cases List.mem_singleton.1 hlast
        rw [hitem] at hremakes
        cases hremakes

/-- The component of an item has been made anew, and the modules that are stale by that are
gathered. -/
theorem Behind.land {previous : Record} (h : Behind s compile done c affected)
    (hitem : item.remakes? = some component)
    (happart : ∀ item' ∈ done, item'.concerns ⟨component, .dom⟩ = false)
    (hmakes : s.makes? compile component = some r)
    (hprevious : s.bench.cache.peek ⟨component, .dom⟩ = some previous)
    (hcurrent : ∀ k : Key, k.target = .dom → (c'.current? k).map Filed.record =
      if k.slot = (⟨component, .dom⟩ : Key).slot then some r
      else (c.current? k).map Filed.record) :
    Behind s compile (done ++ [item]) c'
      (gather affected (s.staleIds component (some previous) r)) where
  made {item' component'} hmem hremakes := by
    rw [hcurrent _ rfl]
    rcases List.mem_append.1 hmem with hdone | hlast
    · -- Another item's record is in another slot, which has not been written.
      have hother := happart item' hdone
      rw [UpdateItem.concerns_of_remakes? hremakes, ← Bool.not_eq_true, Key.same_iff] at hother
      rw [if_neg hother]
      exact h.made hdone hremakes
    · cases List.mem_singleton.1 hlast
      cases hitem.symm.trans hremakes
      rw [if_pos rfl]
      exact ⟨r, hmakes, rfl⟩
  kept {k} hk hnone := by
    have hlast := hnone item (List.mem_append_right _ (List.mem_singleton_self _))
    rw [UpdateItem.concerns_of_remakes? hitem, ← Bool.not_eq_true, Key.same_iff] at hlast
    rw [hcurrent k hk, if_neg (Ne.symm hlast)]
    exact h.kept hk fun item' hmem => hnone item' (List.mem_append_left _ hmem)
  gathered {id} := by
    rw [mem_gather, h.gathered]
    constructor
    · -- What the last item adds is what differs between its two records.
      rintro (⟨item', component', previous', r', hmem, hrest⟩ | hstale)
      · exact ⟨item', component', previous', r', List.mem_append_left _ hmem, hrest⟩
      · exact ⟨item, component, previous, r, List.mem_append_right _ (List.mem_singleton_self _),
          hitem, hprevious, hmakes, hstale⟩
    · rintro ⟨item', component', previous', r', hmem, hremakes, hprevious', hmakes', hstale⟩
      rcases List.mem_append.1 hmem with hdone | hlast
      · exact .inl ⟨item', component', previous', r', hdone, hremakes, hprevious', hmakes', hstale⟩
      · cases List.mem_singleton.1 hlast
        cases hitem.symm.trans hremakes
        cases hprevious.symm.trans hprevious'
        cases hmakes.symm.trans hmakes'
        exact .inr hstale

/-! ## What there is to do -/

/-- Of what is to be done for a change, no item in front of one that makes a component anew empties
the server's slot of the component. -/
theorem not_empties_of_remakes? (h : s.Calm file timestamp)
    (hitems : s.itemsFor file = done ++ item :: rest) (hitem : item.remakes? = some component) :
    ∀ item' ∈ done, item'.empties ⟨component, .ssr⟩ = false := by
  have horder := pairwise_itemsFor h.mirrors file
  rw [hitems, List.pairwise_append] at horder
  obtain ⟨-, -, hearlier⟩ := horder
  intro item' hmem
  obtain ⟨hnot, hascending⟩ := hearlier item' hmem item List.mem_cons_self
  cases item with
  | mention count => cases hitem
  | component file' => exact absurd rfl (hnot file')
  | dependent m =>
    obtain ⟨htarget, rfl⟩ := UpdateItem.remakes?_dependent hitem
    rw [← Bool.not_eq_true]
    intro hempties
    cases item' with
    | mention count => cases hempties
    | component file' =>
      -- The changed file does not depend on itself.
      have hmem' : UpdateItem.component file' ∈ s.itemsFor file :=
        hitems ▸ List.mem_append_left _ hmem
      obtain ⟨-, rfl⟩ := component_mem_itemsFor.1 hmem'
      have hlisted : UpdateItem.dependent m ∈ s.itemsFor file' := by
        rw [hitems]
        exact List.mem_append_right _ List.mem_cons_self
      exact h.other hlisted (congrArg Prod.fst (Key.same_iff.1 hempties))
    | dependent l =>
      have hfile : l.file.components = m.file.components :=
        congrArg Prod.fst (Key.same_iff.1 hempties)
      rcases hascending l m rfl rfl with hbefore | ⟨-, -, hserver⟩
      · rw [FilePath.before_iff, FilePath.orderKey_congr hfile] at hbefore
        exact List.lt_irrefl _ hbefore
      · -- Of two keys for one file the browser's comes first.
        rw [htarget] at hserver
        cases hserver

/-- Of what is to be done for a change, no two items make the same component anew. -/
theorem not_concerns_of_remakes? (h : s.Calm file timestamp)
    (hitems : s.itemsFor file = done ++ item :: rest) (hitem : item.remakes? = some component) :
    ∀ item' ∈ done, item'.concerns ⟨component, .dom⟩ = false := by
  intro item' hmem
  have hapart := not_empties_of_remakes? h hitems hitem item' hmem
  rw [← Bool.not_eq_true] at hapart ⊢
  intro hconcerns
  exact hapart (UpdateItem.empties_of_concerns hconcerns)

/-- The answer to a change meets no other compile, and the changed file is spelled as it is cached.
-/
structure Familiar (s : Session) (file : FilePath) (timestamp : Nat) : Prop extends
    s.Calm file timestamp where
  spelled : s.bench.cache.Spelled
  cached : ∀ r, s.bench.cache.peek ⟨file, .dom⟩ = some r → r.file = file

/-- Nothing is to be done for a file that has no record for the browser and no dependent. -/
theorem isEmpty_itemsFor :
    (s.itemsFor file).isEmpty = (!(s.bench.cache.peek ⟨file, .dom⟩).isSome &&
      (s.bench.cache.dependents file).isEmpty) := by
  unfold itemsFor updateItems
  cases (s.bench.cache.peek ⟨file, .dom⟩).isSome <;>
    cases s.bench.cache.dependents file <;> rfl

theorem dependent_mem_itemsFor {l : Key} :
    .dependent l ∈ s.itemsFor file ↔ l ∈ s.bench.cache.dependents file := by
  unfold itemsFor updateItems
  simp only [List.mem_append, List.mem_map, UpdateItem.dependent.injEq, exists_eq_right]
  refine or_iff_right ?_
  rintro (h | h) <;> (split at h <;> simp at h)

/-- A component that is made anew has a record, which is that of the changed file or uses it. -/
theorem Calm.peek_of_remakes? (h : s.Calm file timestamp) (hmem : item ∈ s.itemsFor file)
    (hitem : item.remakes? = some component) :
    ∃ r, s.bench.cache.peek ⟨component, .dom⟩ = some r ∧
      (component = file ∨ .dependent ⟨component, .dom⟩ ∈ s.itemsFor file ∧ r.uses file) := by
  cases item with
  | mention count => cases hitem
  | component file' =>
    cases hitem
    obtain ⟨hloaded, rfl⟩ := component_mem_itemsFor.1 hmem
    obtain ⟨r, hr⟩ := Option.isSome_iff_exists.1 hloaded
    exact ⟨r, hr, .inl rfl⟩
  -- A dependent has a current record, since it was found by it; nothing hides it while the cache is
  -- idle.
  | dependent l =>
    obtain ⟨htarget, rfl⟩ := UpdateItem.remakes?_dependent hitem
    have hself : (⟨l.file, .dom⟩ : Key) = l := by rw [← htarget]
    obtain ⟨f, hf, huses, _⟩ := h.dependent hmem
    rw [hself]
    refine ⟨f.record, ?_, .inr ⟨hmem, huses⟩⟩
    rw [h.idle.peek_eq, hf]
    rfl

/-- A record of the browser's that depends on the file is spelled like its component. -/
theorem Calm.file_of_listed (h : s.Calm file timestamp) (hspelled : s.bench.cache.Spelled)
    (hlisted : .dependent ⟨component, .dom⟩ ∈ s.itemsFor file)
    (hr : s.bench.cache.peek ⟨component, .dom⟩ = some r) : r.file = component := by
  obtain ⟨f, hf, rfl⟩ := Option.map_eq_some_iff.1 ((h.idle.peek_eq _).symm.trans hr)
  have hsource := Cache.mem_dependents_iff_mem_sources.1 (dependent_mem_itemsFor.1 hlisted)
  exact hspelled file _ f hsource hf

/-- What is made anew is spelled like its component. -/
theorem Familiar.peek_of_remakes? (h : s.Familiar file timestamp) (hmem : item ∈ s.itemsFor file)
    (hitem : item.remakes? = some component) :
    ∃ r, s.bench.cache.peek ⟨component, .dom⟩ = some r ∧ r.file = component ∧
      (file.components = component.components ∨ r.uses file) := by
  obtain ⟨r, hr, rfl | ⟨hlisted, huses⟩⟩ := h.toCalm.peek_of_remakes? hmem hitem
  · exact ⟨r, hr, h.cached r hr, .inl rfl⟩
  · exact ⟨r, hr, h.toCalm.file_of_listed h.spelled hlisted hr, .inr huses⟩

/-- A record of the browser's that is of the changed file or uses it is made anew. -/
theorem Familiar.exists_remakes? (h : s.Familiar file timestamp) (hk : k.target = .dom)
    (hr : s.bench.cache.peek k = some r)
    (huses : file.components = k.file.components ∨ r.uses file) :
    ∃ item ∈ s.itemsFor file, item.remakes? = some r.file ∧
      (⟨r.file, .dom⟩ : Key).slot = k.slot := by
  obtain ⟨f, hf, rfl⟩ := Option.map_eq_some_iff.1 ((h.idle.peek_eq k).symm.trans hr)
  -- The file's own component has its item at the head, every other one among the dependents.
  by_cases hown : file.components = k.file.components
  · have hslot : (⟨file, .dom⟩ : Key).slot = k.slot := Prod.ext hown hk.symm
    have hloaded : s.bench.cache.peek ⟨file, .dom⟩ = some f.record :=
      (Cache.peek_congr hslot).trans hr
    have hfile := h.cached _ hloaded
    refine ⟨.component file, component_mem_itemsFor.2 ⟨Option.isSome_of_eq_some hloaded, rfl⟩, ?_⟩
    rw [hfile]
    exact ⟨rfl, hslot⟩
  · obtain ⟨l, hl, hslot⟩ := (Cache.mem_dependents h.mirrors).2
      ⟨f, hf, huses.resolve_left hown, hown⟩
    -- The mention may spell the file in another way; the record knows the spelling.
    have htarget : l.target = .dom := (congrArg Prod.snd hslot).trans hk
    have hcurrent : s.bench.cache.current? l = some f := by
      rw [Cache.current?, Cache.content?_congr hslot]
      exact hf
    have hfile := h.spelled file l f (Cache.mem_dependents_iff_mem_sources.1 hl) hcurrent
    refine ⟨.dependent l, dependent_mem_itemsFor.2 hl, ?_⟩
    rw [hfile, UpdateItem.remakes?, htarget]
    exact ⟨rfl, by rw [← hslot, ← htarget]⟩

/-! ## How far the answer is -/

end Session

/-- The modules that a change is reported to have made stale. -/
def UpdateOutcome.ids : UpdateOutcome → List String
  | affected ids => ids
  | _ => []

namespace Session

open Workbench

variable {s y z : Session} {i n t pauses timestamp : Nat} {d : Option Filed}
  {file component : FilePath} {item : UpdateItem} {done rest : List UpdateItem}
  {affected : List String} {compile : CompileInput → CompileResult} {r : Record}

/-- How far the answer to a change has come that has met no other compile, what it has made by then
of the browser's records that the change found, and what it has gathered. -/
inductive Gathers (s : Session) (i : Nat) (file : FilePath) (timestamp pauses : Nat)
    (compile : CompileInput → CompileResult) : Session → Prop where
  | fresh {y : Session} (hstage : y.stage? i = some (.fresh (.change file timestamp)))
      (hbench : y.bench = s.bench) (hseen : y.lastSeen = s.lastSeen)
      (hsteady : Steady s file pauses compile y) : Gathers s i file timestamp pauses compile y
  | making {y : Session} {u : Update} {component : FilePath} {n : Nat} {making : Making}
      {done : List UpdateItem} {item : UpdateItem}
      (hitems : s.itemsFor file = done ++ item :: u.rest) (hfile : u.file = file)
      (hitem : item.remakes? = some component)
      (hstage : y.stage? i = some (.updating u component n (some making)))
      (htries : s.Tries component making)
      (hbehind : Behind s compile done y.bench.cache u.affected)
      (hsteady : Steady s file pauses compile y) : Gathers s i file timestamp pauses compile y
  | ended {y : Session} {outcome : UpdateOutcome}
      (hstage : y.stage? i = some (.done (.updated outcome))) (hidle : y.bench.cache.Idle)
      (houtcome : outcome =
        if (s.itemsFor file).isEmpty then .notLoaded else .affected outcome.ids)
      (hbehind : Behind s compile (s.itemsFor file) y.bench.cache outcome.ids)
      (hsteady : Steady s file pauses compile y) : Gathers s i file timestamp pauses compile y
  /-- It has failed at the component of an item, which cannot be made. -/
  | failed {y : Session} {e : BuildError} {component : FilePath} {item : UpdateItem}
      (hmem : item ∈ s.itemsFor file) (hitem : item.remakes? = some component)
      (hmakes : s.makes? compile component = none)
      (hstage : y.stage? i = some (.done (.failed e))) :
      Gathers s i file timestamp pauses compile y

/-- The turn that asks for a component has gathered what lies behind it. -/
theorem gathers_startRecompute (hitems : s.itemsFor file = done ++ item :: rest)
    (hitem : item.remakes? = some component) (hs : (y.stage? i).isSome)
    (hidle : y.bench.cache.Idle) (hbehind : Behind s compile done y.bench.cache affected)
    (hsteady : Steady s file pauses compile y) :
    Gathers s i file timestamp pauses compile
      (y.startRecompute i ⟨file, rest, affected⟩ component) := by
  obtain ⟨hstage, hbench⟩ := startRecompute_of_idle hs hidle ⟨file, rest, affected⟩ component
  refine .making hitems rfl hitem hstage trivial (hbehind.congr fun k _ => ?_)
    (hsteady.congr rfl rfl rfl rfl)
  rw [hbench]
  exact current?_issue (hidle.content?_eq _) k

/-- An answer goes through what is still to be done while no slot is pending. -/
theorem gathers_drain (h : s.Calm file timestamp) (hitems : s.itemsFor file = done ++ rest)
    (hsome : (s.itemsFor file).isEmpty = false) (hs : (y.stage? i).isSome) (hidle : y.bench.cache.Idle)
    (hbehind : Behind s compile done y.bench.cache affected)
    (hsteady : Steady s file pauses compile y) :
    Gathers s i file timestamp pauses compile (y.drain i file affected rest) := by
  induction rest generalizing y done with
  | nil =>
    rw [List.append_nil] at hitems
    subst hitems
    refine .ended (stage?_setStage_self hs _) hidle ?_ hbehind (hsteady.congr rfl rfl rfl rfl)
    rw [if_neg (by simp [hsome])]
    rfl
  | cons item rest ih =>
    have hmore : s.itemsFor file = (done ++ [item]) ++ rest := by simpa using hitems
    cases item with
    | component component => exact gathers_startRecompute hitems rfl hs hidle hbehind hsteady
    | mention count =>
      exact ih (y := y.say _) hmore hs hidle (hbehind.skip rfl) (hsteady.congr rfl rfl rfl rfl)
    | dependent l =>
      unfold drain
      split
      · next htarget =>
        have hnone : (UpdateItem.dependent l).remakes? = none := by
          simp only [UpdateItem.remakes?, htarget]
        have htrims : Trims y (y.act (.invalidateKey l)) := trims_act htarget
        exact ih (y := y.act (.invalidateKey l)) hmore hs (hidle.invalidateKey l)
          ((hbehind.skip hnone).congr fun k hk => htrims.current? hk)
          (hsteady.congr rfl rfl rfl rfl)
      · next htarget =>
        have hremakes : (UpdateItem.dependent l).remakes? = some l.file := by
          simp only [UpdateItem.remakes?, htarget]
        have hmem : UpdateItem.dependent l ∈ s.itemsFor file := by simp [hitems]
        obtain ⟨r, hr, _⟩ := h.peek_of_remakes? hmem hremakes
        -- The record of the dependent is as it was when the dependents were listed.
        have hkept := hbehind.kept (k := ⟨l.file, .dom⟩) rfl
          (not_concerns_of_remakes? h hitems hremakes)
        have hself : (⟨l.file, .dom⟩ : Key) = l := by rw [← htarget]
        rw [← hidle.peek_eq, hr, hself] at hkept
        rw [if_pos (Option.isSome_of_eq_some hkept)]
        exact gathers_startRecompute hitems hremakes hs hidle hbehind hsteady

/-- The first turn of an answer gathers from nothing. -/
theorem gathers_startChange (h : s.Calm file timestamp)
    (hs : y.stage? i = some (.fresh (.change file timestamp))) (hbench : y.bench = s.bench)
    (hseen : y.lastSeen = s.lastSeen) (hsteady : Steady s file pauses compile y) :
    Gathers s i file timestamp pauses compile (y.startChange i file timestamp) := by
  have hhot : y.options.hot := hsteady.options ▸ h.hot
  have hnew : y.isStale file timestamp = false := (isStale_congr hseen _ _).trans h.new
  obtain ⟨hidle, -⟩ := swept_receive hbench h.idle file timestamp
  have htrims := trims_receive y file timestamp
  have hsome : ((y.receive file timestamp).stage? i).isSome := by
    rw [htrims.stage?, hs]
    rfl
  have hbehind : Behind s compile [] (y.receive file timestamp).bench.cache [] :=
    behind_nil h.idle fun k hk => by rw [htrims.current? hk, hbench]
  have hreceived : Steady s file pauses compile (y.receive file timestamp) := by
    have hobserved := steady_observe hsteady timestamp
    unfold receive
    split
    · exact hobserved
    · exact hobserved.congr rfl rfl rfl rfl
  rw [startChange_eq hhot hnew, hbench]
  dsimp only
  split
  · next hnothing =>
    -- There is nothing to do.
    rw [Bool.and_eq_true, Bool.not_eq_true', List.isEmpty_iff] at hnothing
    have hnone : s.itemsFor file = [] := by
      rw [itemsFor, updateItems, hnothing.1, hnothing.2]
      rfl
    have hended := stage?_setStage_self hsome (.done (.updated .notLoaded))
    refine .ended hended hidle ?_ (hnone ▸ hbehind) (hreceived.congr rfl rfl rfl rfl)
    rw [hnone]
    rfl
  · next hthing =>
    have hitems : s.itemsFor file = [] ++ s.itemsFor file := rfl
    refine gathers_drain h hitems ?_ hsome hidle hbehind hreceived
    rw [isEmpty_itemsFor]
    simpa using hthing

/-- An answer goes on behind a component that has been made anew. -/
theorem gathers_reconcile {u : Update} (h : s.Calm u.file timestamp)
    (hitems : s.itemsFor u.file = done ++ item :: u.rest) (hitem : item.remakes? = some component)
    (hcall : y.bench.calls[n]? = some ⟨⟨component, .dom⟩, .recompute, .computing t d⟩)
    (hpending : y.bench.cache.content? ⟨component, .dom⟩ = some (.pending t d))
    (honly : ∀ (k : Key) (t' : Nat) (d' : Option Filed),
      y.bench.cache.content? k = some (.pending t' d') → k.slot = (⟨component, .dom⟩ : Key).slot)
    (hmakes : s.makes? compile component = some r)
    (hbehind : Behind s compile done y.bench.cache u.affected)
    (hsteady : Steady s u.file pauses compile z)
    (hbench : z.bench = y.bench.apply (.finish n (.ok r))) (hs : (z.stage? i).isSome) :
    Gathers s i u.file timestamp pauses compile
      (z.reconcile i u component (d.map Filed.record) r) := by
  have hidle := idle_of_landed hcall hpending honly hbench
  have happart := not_concerns_of_remakes? h hitems hitem
  -- What was displaced is the record that the change found.
  obtain ⟨previous, hprevious, -⟩ := h.peek_of_remakes? (by simp [hitems]) hitem
  have hdisplaced : d.map Filed.record = some previous := by
    rw [← hprevious, ← hbehind.kept rfl happart, Cache.current?, hpending]
    rfl
  have htrims : Trims z (z.act (.invalidateKey ⟨component, .ssr⟩)) := trims_act rfl
  have hcurrent : ∀ k : Key, k.target = .dom →
      ((z.act (.invalidateKey ⟨component, .ssr⟩)).bench.cache.current? k).map Filed.record =
        if k.slot = (⟨component, .dom⟩ : Key).slot then some r
        else (y.bench.cache.current? k).map Filed.record := by
    intro k hk
    rw [htrims.current? hk, current?_of_remade hcall hpending hbench, apply_ite (Option.map _)]
    rfl
  have hlanded := hbehind.land hitem happart hmakes hprevious hcurrent
  have hids : (Change.ofReplacement (some previous) r).affected (mainId component)
      (styleId (requestFor z.options component .dom)) =
        s.staleIds component (some previous) r := by
    rw [hsteady.options]
    rfl
  rw [← hids] at hlanded
  rw [hdisplaced]
  have hmore : s.itemsFor u.file = (done ++ [item]) ++ u.rest := by simpa using hitems
  exact gathers_drain (y := (z.act (.invalidateKey ⟨component, .ssr⟩)).say _) h hmore
    (by simp [hitems]) hs (hidle.invalidateKey _) hlanded (hsteady.congr rfl rfl rfl rfl)

/-- What a turn of the answer makes of it. -/
theorem gathers_resume (h : s.Calm file timestamp) (hsweeps : Sweeps s i file timestamp y)
    (hy : Gathers s i file timestamp pauses compile y) :
    Gathers s i file timestamp pauses compile (y.resume i) := by
  cases hy with
  | fresh hstage hbench hseen hsteady =>
    rw [resume_eq hstage]
    exact gathers_startChange h hstage hbench hseen hsteady
  | @making u component n making done item hitems hfile hitem hstage htries hbehind hsteady =>
    subst hfile
    obtain ⟨z, htasks, hbench, hsteady, htried⟩ := resume_of_tries hsteady htries hstage
    have hsome : (z.stage? i).isSome := by
      rw [stage?, htasks]
      exact Option.isSome_of_eq_some hstage
    generalize y.resume i = after at htried ⊢
    -- The attempt is suspended again, or its outcome ends this item.
    cases htried with
    | suspended htries _ =>
      exact .making hitems rfl hitem (stage?_setStage_self hsome _) htries (hbench ▸ hbehind)
        (hsteady.congr rfl rfl rfl rfl)
    | @ended outcome hmakes =>
      obtain ⟨t, d, hcall, hpending, honly⟩ := hsweeps.of_updating hstage
      cases outcome with
      | error e =>
        rw [finishRecompute_error hcall hbench]
        exact .failed (by simp [hitems]) hitem hmakes.symm (stage?_setStage_self hsome _)
      | ok r =>
        rw [finishRecompute_ok hcall hbench]
        exact gathers_reconcile (z := z.act (.finish n (.ok r))) h hitems hitem hcall hpending
          honly hmakes.symm hbehind (hsteady.congr rfl rfl rfl rfl)
          (congrArg (·.apply (.finish n (.ok r))) hbench) hsome
  -- An answer that has ended takes no further turns.
  | ended hstage hidle houtcome hbehind hsteady =>
    have hsame : y.resume i = y := resume_eq hstage
    rw [hsame]
    exact .ended hstage hidle houtcome hbehind hsteady
  | failed hmem hitem hmakes hstage =>
    have hsame : y.resume i = y := resume_eq hstage
    rw [hsame]
    exact .failed hmem hitem hmakes hstage

/-- What some turns make of the answer in which nothing else happens. -/
theorem gathers_run (h : s.Calm file timestamp) (hsweeps : Sweeps s i file timestamp y)
    (hy : Gathers s i file timestamp pauses compile y) (turns : Nat) :
    Gathers s i file timestamp pauses compile (y.run (List.replicate turns (.resume i))) := by
  induction turns generalizing y with
  | zero => exact hy
  | succ turns ih =>
    rw [List.replicate_succ]
    exact ih (sweeps_resume h hsweeps) (gathers_resume h hsweeps hy)

end Session

end HotComponents
