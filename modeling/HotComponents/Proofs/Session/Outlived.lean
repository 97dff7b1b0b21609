import HotComponents.Proofs.Session.Sweep

/-!
# What a change leaves of the server's records

An answer that ends well has emptied the slots of all of the server's records that depended on the
changed file. One that fails has emptied those in front of the component that it failed at, and left
the others as they were, and from them later transforms are still served.

* `sweptBy_all`, `sweptBy_iff_not_outlives`: which slots are empty when all is done, and which when
  the answer is at a component;
* `compilesAgain_of_vacant`, `servesStill_of_ready`: what a later transform makes of a slot;
* `dependents_dropped_up_to_the_failing_component`: what is left in the end.
-/

namespace HotComponents

open ModuleId

namespace Session

open Workbench

variable {s y : Session} {i : Nat} {file component : FilePath} {k : Key} {timestamp : Nat}
  {done rest : List UpdateItem}

/-! ## Which records are in front of a component -/

/-- The item comes after the other one: the changed file itself is no later item, and dependents are
in ascending order. -/
def InOrder (a b : UpdateItem) : Prop :=
  (∀ file, b ≠ .component file) ∧ ∀ l m, a = .dependent l → b = .dependent m → l.Before m

theorem pairwise_itemsFor (h : s.bench.cache.Mirrors) (file : FilePath) :
    (s.itemsFor file).Pairwise InOrder := by
  have hascending := Graph.ascending_dependents h.agrees file
  have hdependents :
      ((s.bench.cache.dependents file).map UpdateItem.dependent).Pairwise InOrder := by
    rw [List.pairwise_map]
    refine hascending.imp fun {l m} hbefore => ⟨nofun, fun l' m' hl hm => ?_⟩
    cases hl
    cases hm
    exact hbefore
  -- At most one component, at most one mention, then the dependents in their order.
  unfold itemsFor updateItems
  rw [List.pairwise_append, List.pairwise_append]
  refine ⟨⟨?_, ?_, ?_⟩, hdependents, ?_⟩
  · split <;> simp
  · split <;> simp
  · intro a _ b hb
    split at hb
    · cases hb
    · cases List.mem_singleton.1 hb
      exact ⟨nofun, nofun⟩
  · intro a ha b hb
    obtain ⟨m, -, rfl⟩ := List.mem_map.1 hb
    refine ⟨nofun, fun l _ hl => ?_⟩
    subst hl
    rw [List.mem_append] at ha
    rcases ha with ha | ha <;> (split at ha <;> simp at ha)

theorem component_mem_itemsFor :
    .component component ∈ s.itemsFor file ↔
      (s.bench.cache.peek ⟨file, .dom⟩).isSome ∧ component = file := by
  -- The other two parts of the list hold no components.
  unfold itemsFor updateItems
  simp only [List.mem_append, List.mem_map, reduceCtorEq, and_false, exists_false, or_false]
  constructor
  · rintro (h | h)
    · split at h
      · next hloaded => exact ⟨hloaded, by simpa using h⟩
      · cases h
    · split at h <;> simp at h
  · rintro ⟨hloaded, rfl⟩
    rw [if_pos hloaded]
    exact .inl (List.mem_singleton_self _)

/-- A record that depends on the file is the file's own, or its key is among what is to be done. -/
theorem own_or_listed (h : s.Calm file timestamp) {f : Filed}
    (hf : s.bench.cache.current? k = some f) (huses : f.record.uses file) :
    file.components = k.file.components ∨
      ∃ l, .dependent l ∈ s.itemsFor file ∧ l.slot = k.slot := by
  by_cases hown : file.components = k.file.components
  · exact .inl hown
  · obtain ⟨l, hl, hslot⟩ := (Cache.mem_dependents h.mirrors).2 ⟨f, hf, huses, hown⟩
    refine .inr ⟨l, ?_, hslot⟩
    unfold itemsFor updateItems
    exact List.mem_append_right _ (List.mem_map_of_mem hl)

/-- Of the file's own slot and those of its dependents, what was swept before some items were done
with is what one of the items is about. -/
theorem sweptBy_own (hk : k.target = .ssr) (hown : file.components = k.file.components)
    (hdone : .component file ∈ s.itemsFor file → .component file ∈ done) :
    s.sweptBy file done k := by
  have hsame : Key.same ⟨file, .ssr⟩ k := Key.same_iff.2 (Prod.ext hown hk.symm)
  rw [sweptBy, Bool.or_eq_true, List.any_eq_true]
  by_cases hloaded : (s.bench.cache.peek ⟨file, .dom⟩).isSome
  · exact .inr ⟨_, hdone (component_mem_itemsFor.2 ⟨hloaded, rfl⟩), hsame⟩
  · exact .inl (by simp [hloaded, hsame])

theorem sweptBy_dependent (hk : k.target = .ssr) {l : Key}
    (hfile : l.file.components = k.file.components) (hdone : .dependent l ∈ done) :
    s.sweptBy file done k := by
  rw [sweptBy, Bool.or_eq_true, List.any_eq_true]
  exact .inr ⟨_, hdone, Key.same_iff.2 (Prod.ext hfile hk.symm)⟩

/-- An answer that is through with all there is to do has emptied the slots of all records that
depend on the file. -/
theorem sweptBy_all (h : s.Calm file timestamp) (hk : k.target = .ssr) {f : Filed}
    (hf : s.bench.cache.current? k = some f) (huses : f.record.uses file) :
    s.sweptBy file (s.itemsFor file) k := by
  rcases own_or_listed h hf huses with hown | ⟨l, hl, hslot⟩
  · exact sweptBy_own hk hown id
  · exact sweptBy_dependent hk (congrArg Prod.fst hslot) hl

/-- The slot of a key is left as it was by an answer that fails at a component: at the changed file
itself, or at another one that the key's file is not in front of. -/
def Outlives (file component : FilePath) (k : Key) : Prop :=
  component.components = file.components ∨
    file.components ≠ k.file.components ∧ k.file.before component = false

/-- An answer that is at a dependent has emptied the slots of those in front of it by then, and of
no other. -/
theorem sweptBy_iff_before (h : s.Calm file timestamp) {l l' : Key}
    (hitems : s.itemsFor file = done ++ .dependent l :: rest) (htarget : l.target = .dom)
    (hk : k.target = .ssr) (hl' : .dependent l' ∈ s.itemsFor file) (hslot : l'.slot = k.slot) :
    s.sweptBy file done k ↔ k.file.before l.file := by
  have horder := pairwise_itemsFor h.mirrors file
  rw [hitems, List.pairwise_append, List.pairwise_cons] at horder
  obtain ⟨-, ⟨hlater, -⟩, hearlier⟩ := horder
  have hfile : l'.file.components = k.file.components := congrArg Prod.fst hslot
  have hne : file.components ≠ k.file.components := hfile ▸ h.other hl'
  have hirrefl {p q : FilePath} (hpq : p.components = q.components) : ¬ p.before q := by
    rw [FilePath.before_iff, FilePath.orderKey_congr hpq]
    exact List.lt_irrefl _
  constructor
  · intro hswept
    rw [sweptBy, Bool.or_eq_true, List.any_eq_true] at hswept
    rcases hswept with hown | ⟨a, ha, hempties⟩
    · rw [Bool.and_eq_true] at hown
      exact absurd (congrArg Prod.fst (Key.same_iff.1 hown.2)) hne
    · -- Of the items before, one that empties the slot is a dependent, and it stands in front.
      have hbefore := hearlier a ha _ List.mem_cons_self
      cases a with
      | mention count => cases hempties
      | component file' =>
        obtain ⟨-, rfl⟩ := component_mem_itemsFor.1 (hitems ▸ List.mem_append_left _ ha)
        exact absurd (congrArg Prod.fst (Key.same_iff.1 hempties)) hne
      | dependent m =>
        have hm : m.file.components = k.file.components := congrArg Prod.fst (Key.same_iff.1 hempties)
        rcases hbefore.2 m l rfl rfl with hfront | ⟨-, -, hserver⟩
        · rw [FilePath.before_iff] at hfront ⊢
          rwa [← FilePath.orderKey_congr hm]
        · rw [htarget] at hserver
          cases hserver
  · intro hfront
    rw [hitems, List.mem_append, List.mem_cons] at hl'
    rcases hl' with hdone | hself | hrest
    · exact sweptBy_dependent hk hfile hdone
    · cases hself
      exact absurd hfront (hirrefl hfile.symm)
    · exfalso
      rcases (hlater _ hrest).2 l l' rfl rfl with hbehind | ⟨hsame, -, -⟩
      · exact hirrefl hfile.symm (FilePath.before_trans hfront hbehind)
      · exact hirrefl (hfile.symm.trans hsame.symm) hfront

/-- An answer that is at the component of an item has emptied the slots in front of it by then, and
no other that depends on the file. -/
theorem sweptBy_iff_not_outlives (h : s.Calm file timestamp) {item : UpdateItem}
    (hitems : s.itemsFor file = done ++ item :: rest) (hitem : item.remakes? = some component)
    (hk : k.target = .ssr) {f : Filed} (hf : s.bench.cache.current? k = some f)
    (huses : f.record.uses file) : s.sweptBy file done k ↔ ¬ Outlives file component k := by
  have horder := pairwise_itemsFor h.mirrors file
  rw [hitems, List.pairwise_append, List.pairwise_cons] at horder
  obtain ⟨-, ⟨hlater, -⟩, hearlier⟩ := horder
  have hmem : item ∈ s.itemsFor file := by simp [hitems]
  cases item with
  | mention count => cases hitem
  | component file' =>
    -- The changed file itself is the first item.
    cases hitem
    obtain ⟨hloaded, rfl⟩ := component_mem_itemsFor.1 hmem
    have hfirst : done = [] := by
      refine List.eq_nil_iff_forall_not_mem.2 fun a ha => ?_
      exact (hearlier a ha _ List.mem_cons_self).1 component rfl
    simp [hfirst, sweptBy, hloaded, Outlives]
  | dependent l =>
    obtain ⟨htarget, rfl⟩ := UpdateItem.remakes?_dependent hitem
    have hother : file.components ≠ l.file.components := h.other hmem
    have houtlives : Outlives file l.file k ↔
        file.components ≠ k.file.components ∧ k.file.before l.file = false :=
      or_iff_right (Ne.symm hother)
    rw [houtlives, not_and, Bool.not_eq_false]
    rcases own_or_listed h hf huses with hown | ⟨l', hl', hslot⟩
    · -- The file's own slot is emptied first or with the file itself.
      refine ⟨fun _ hne => absurd hown hne, fun _ => sweptBy_own hk hown fun hlisted => ?_⟩
      rw [hitems, List.mem_append, List.mem_cons] at hlisted
      rcases hlisted with hdone | hself | hrest
      · exact hdone
      · cases hself
      · exact absurd rfl ((hlater _ hrest).1 file)
    · have hfile : l'.file.components = k.file.components := congrArg Prod.fst hslot
      have hne : file.components ≠ k.file.components := hfile ▸ h.other hl'
      rw [sweptBy_iff_before h hitems htarget hk hl' hslot]
      exact ⟨fun hfront _ => hfront, fun hfront => hfront hne⟩

/-! ## What a later transform makes of a slot -/

/-- The session in which a transform has been started and has had its first turn. -/
def transformNow (s : Session) (name id code : String) (target : Target) : Session :=
  s.run [.start name (.transform id code target), .resume s.tasks.length]

/-- A transform of a component that has the same text as a record of it begins a compile. -/
def CompilesAgain (s : Session) (k : Key) (record : Record) : Prop :=
  ∀ (name id code : String) (r : Request), parse s.options id k.target = some r →
    r.route = .main → r.key.slot = k.slot → record.digest = .of code k.target →
    (s.transformNow name id code k.target).compiler.inputs =
      s.compiler.inputs ++ [(s.compiler.started, s.options.compileInput r.file code k.target)]

/-- A transform of a component that has the same text as a record of it is served from that record,
and nothing is compiled. -/
def ServesStill (s : Session) (k : Key) (record : Record) : Prop :=
  ∀ (name id code : String) (r : Request), parse s.options id k.target = some r →
    r.route = .main → r.key.slot = k.slot → record.digest = .of code k.target →
    (s.transformNow name id code k.target).stage? s.tasks.length =
        some (.done (.content (some (mainCode s.options r record)))) ∧
      (s.transformNow name id code k.target).compiler = s.compiler

variable {name id code : String} {target : Target} {r : Request}

/-- A transform of a main module begins to serve it in its first turn. -/
theorem transformNow_eq (hparse : parse s.options id target = some r) (hmain : r.route = .main)
    (name code : String) :
    s.transformNow name id code target =
      ((s.startTask name (.transform id code target)).say
        (readingNotes s.options id target)).startServing s.tasks.length r code := by
  have hparse' : parse (s.startTask name (.transform id code target)).options id target = some r :=
    hparse
  exact resume_transform (stage?_startTask_new s name _) hparse' hmain

theorem compiler_endServing (y : Session) (i : Nat) (r : Request) (n : Nat) :
    (y.endServing i r n).compiler = y.compiler := by
  unfold endServing
  split <;> rfl

theorem compiler_progressServing (y : Session) (i : Nat) (r : Request) (code : String) (n : Nat)
    (input : CompileInput) (progress : Progress) :
    (y.progressServing i r code n input progress).compiler = y.compiler := by
  cases progress with
  | suspended suspension => rfl
  | ended result => exact compiler_endServing _ _ _ _

/-- Where a slot is vacant, a transform begins a compile. -/
theorem compilesAgain_of_vacant (hvacant : s.bench.cache.content? k = none) (record : Record) :
    s.CompilesAgain k record := by
  intro name id code r hparse hmain hslot _
  have htarget : r.target = k.target := congrArg Prod.snd hslot
  rw [transformNow_eq hparse hmain]
  generalize hy : (s.startTask name (.transform id code k.target)).say
    (readingNotes s.options id k.target) = y
  have hbench : y.bench = s.bench := hy ▸ rfl
  have hcompiler : y.compiler = s.compiler := hy ▸ rfl
  have hoptions : y.options = s.options := hy ▸ rfl
  have hcontent : y.bench.cache.content? r.key = none := by
    rw [hbench, Cache.content?_congr hslot, hvacant]
  -- The vacant slot is claimed, so the call computes and the compile begins in the same turn.
  have hphase : (y.call r.key (servingIntent r code)).1.bench.phase? y.bench.calls.length =
      some (.computing y.bench.cache.nextTicket none) := by
    simp [Session.call, phase?, Workbench.apply, Call.resume, Call.look, servingIntent,
      Cache.claim, hcontent, update, Call.atPhase]
  change ((y.call r.key (servingIntent r code)).1.advanceServing _ r code
    y.bench.calls.length).compiler.inputs = _
  unfold advanceServing
  rw [hphase]
  dsimp only
  rw [compiler_progressServing]
  change ((y.call r.key (servingIntent r code)).1.compiler.start
    (y.options.compileInput r.file code r.target)).1.inputs = _
  rw [Compiler.inputs_start, hoptions, htarget, ← hcompiler]
  rfl

/-- Where a record of the same text is ready, it is what a transform is served from. -/
theorem servesStill_of_ready {f : Filed} (hready : s.bench.cache.content? k = some (.ready f)) :
    s.ServesStill k f.record := by
  intro name id code r hparse hmain hslot hdigest
  have htarget : r.target = k.target := congrArg Prod.snd hslot
  rw [transformNow_eq hparse hmain]
  have hsome : ((s.startTask name (.transform id code k.target)).stage? s.tasks.length).isSome :=
    Option.isSome_of_eq_some (stage?_startTask_new s name _)
  generalize hy : (s.startTask name (.transform id code k.target)).say
    (readingNotes s.options id k.target) = y
  have hthere : (y.stage? s.tasks.length).isSome := hy ▸ hsome
  have hbench : y.bench = s.bench := hy ▸ rfl
  have hcompiler : y.compiler = s.compiler := hy ▸ rfl
  have hoptions : y.options = s.options := hy ▸ rfl
  have hcontent : y.bench.cache.content? r.key = some (.ready f) := by
    rw [hbench, Cache.content?_congr hslot, hready]
  have haccepts : (SourceDigest.of code r.target == f.record.digest) = true := by
    rw [hdigest, htarget]
    exact beq_self_eq_true _
  -- The digest is that of the text, so the call returns with the record at once.
  have hcall : (y.call r.key (servingIntent r code)).1.bench.calls[y.bench.calls.length]? =
      some ⟨r.key, servingIntent r code, .returned (.record f)⟩ := by
    simp [Session.call, Workbench.apply, Call.resume, Call.look, servingIntent, Call.reuse,
      Cache.claim, hcontent, Reuse.accepts, haccepts, update, Call.atPhase]
  have hserved : y.startServing s.tasks.length r code =
      (y.call r.key (servingIntent r code)).1.endTask s.tasks.length
        (.content (some (mainCode s.options r f.record))) := by
    change (y.call r.key (servingIntent r code)).1.advanceServing _ r code
      y.bench.calls.length = _
    simp only [advanceServing, phase?, hcall, Option.map_some, endServing, answer?,
      Option.bind_some, Call.answer?, Answer.map]
    rw [← hoptions]
    rfl
  rw [hserved]
  exact ⟨stage?_setStage_self hthere _, hcompiler⟩

/-! ## What is left in the end -/

/-- The answer to a change drops the server's records up to the component it fails at, if it fails.
Take a session as any run has left it, with no slot pending, and let it receive a change that is
not stale, with hot updates on. While nothing else moves, whatever the files and the compiler do,
look at any key of the server whose record depended on the changed file when the answer was begun.
Once the answer has ended well, the key's slot is vacant, and a transform of the same text compiles
again. If it has failed, then at some component whose record was being made anew, the changed file
or one that depends on it: where that is the changed file itself, or another one that the key's file
is not in front of, the old record is still there and such a transform is served from it without a
compile; all other slots are vacant. -/
theorem dependents_dropped_up_to_the_failing_component (start : Session) (before alone : List Event)
    (i : Nat) (file : FilePath) (timestamp : Nat) :
    let s := start.run before
    let last := s.run alone
    start.bench = {} → s.stage? i = some (.fresh (.change file timestamp)) → s.options.hot →
    s.isStale file timestamp = false → s.bench.cache.Idle → (∀ e ∈ alone, e.isAlone i) →
    (∀ outcome, last.stage? i = some (.done (.updated outcome)) →
      ∀ k f, k.target = .ssr → s.bench.cache.current? k = some f → f.record.uses file →
        last.bench.cache.content? k = none ∧ last.CompilesAgain k f.record) ∧
    ∀ e, last.stage? i = some (.done (.failed e)) →
      ∃ component : FilePath,
        (component = file ∨ ∃ f, s.bench.cache.current? ⟨component, .dom⟩ = some f ∧
          f.record.uses file) ∧
        ∀ k f, k.target = .ssr → s.bench.cache.current? k = some f → f.record.uses file →
          (Outlives file component k →
            last.bench.cache.content? k = some (.ready f) ∧ last.ServesStill k f.record) ∧
          (¬ Outlives file component k →
            last.bench.cache.content? k = none ∧ last.CompilesAgain k f.record) := by
  intro s last hbench hs hhot hnew hidle halone
  have hmirrors : s.bench.cache.Mirrors := by
    obtain ⟨moves, hrun⟩ := bench_run start before
    rw [hrun, hbench]
    exact mirrors_after moves
  have hcalm : s.Calm file timestamp := ⟨hhot, hnew, hidle, hmirrors⟩
  have hlast : Sweeps s i file timestamp last :=
    sweeps_run hcalm halone (.fresh hs rfl rfl rfl)
  have hdropped {k : Key} {f : Filed} (hnone : last.bench.cache.content? k = none) :
      last.bench.cache.content? k = none ∧ last.CompilesAgain k f.record :=
    ⟨hnone, compilesAgain_of_vacant hnone f.record⟩
  constructor
  · -- An answer that has gone through all items has dropped all server dependents.
    intro outcome hended k f hk hf huses
    cases hlast with
    | ended hstage hswept =>
      have hgone := sweptBy_all hcalm hk hf huses
      exact hdropped ((hswept.server hk).trans (if_pos hgone))
    | fresh hstage => cases hended.symm.trans hstage
    | making _ _ _ hstage => cases hended.symm.trans hstage
    | failed _ _ hstage => cases hended.symm.trans hstage
  · -- An answer that has failed has dropped those up to the item that failed.
    intro e hended
    cases hlast with
    | @failed _ component done rest item hitems hitem hstage hswept =>
      refine ⟨component, ?_, fun k f hk hf huses => ?_⟩
      · have hmem : item ∈ s.itemsFor file := by simp [hitems]
        cases item with
        | component file' =>
          cases hitem
          exact .inl (component_mem_itemsFor.1 hmem).2
        | mention count => cases hitem
        | dependent l =>
          obtain ⟨htarget, rfl⟩ := UpdateItem.remakes?_dependent hitem
          obtain ⟨f, hf, huses, -⟩ := hcalm.dependent hmem
          have hself : (⟨l.file, .dom⟩ : Key) = l := by rw [← htarget]
          exact .inr ⟨f, hself ▸ hf, huses⟩
      · have hgone := sweptBy_iff_not_outlives hcalm hitems hitem hk hf huses
        constructor
        · intro houtlives
          have hstays : last.bench.cache.content? k = some (.ready f) := by
            rw [hswept.server hk, if_neg (fun hswept => hgone.1 hswept houtlives),
              hidle.content?_eq k, hf]
            rfl
          exact ⟨hstays, servesStill_of_ready hstays⟩
        · intro hfront
          exact hdropped ((hswept.server hk).trans (if_pos (hgone.2 hfront)))
    | fresh hstage => cases hended.symm.trans hstage
    | making _ _ _ hstage => cases hended.symm.trans hstage
    | ended hstage => cases hended.symm.trans hstage

end Session

namespace Sample

/-- A component. -/
def article : FilePath := ⟨"/app/Article.svelte"⟩

/-- A component that is made from it. -/
def magazine : FilePath := ⟨"/app/Magazine.svelte"⟩

/-- A session whose compiles end at once: both components are compiled, and the first one does not
compile once more. -/
def misprint : Session where
  options := { root := ⟨"/app"⟩ }
  disk := Disk.write {} article "article".toUTF8.toList
  compiler := {
    kind := .driven
    queue := [.ok { js := ⟨"article", none⟩ },
      .ok { js := ⟨"magazine", none⟩, dependencies := [article] },
      .error { message := "unexpected end" }] }

/-- The first component is served to the browser and the other one to the server; then the first one
changes. -/
def bothServed : List Session.Event :=
  [.start "article" (.transform article.text "article" .dom), .resume 0,
    .start "magazine" (.transform magazine.text "magazine" .ssr), .resume 1,
    .start "change" (.change article 1)]

end Sample

namespace Session

/-- The changed component does not compile, and the answer fails. The server's record that depends on
the component is still there, and a transform of its text is served from it. -/
theorem dependents_dropped_up_to_the_failing_component_stale :
    let s := Sample.misprint.run Sample.bothServed
    let last := s.run [.resume 2, .resume 2]
    let k : Key := ⟨Sample.magazine, .ssr⟩
    last.stage? 2 =
      some (.done (.failed (.compile ⟨Sample.article, { message := "unexpected end" }⟩))) ∧
    ∃ f, s.bench.cache.current? k = some f ∧ f.record.uses Sample.article ∧
      last.bench.cache.content? k = some (.ready f) ∧ last.ServesStill k f.record := by
  intro s last k
  have hfailed : last.stage? 2 = some (.done (.failed
      (.compile ⟨Sample.article, { message := "unexpected end" }⟩))) := by decide +kernel
  have hstart : s.stage? 2 = some (.fresh (.change Sample.article 1)) := by decide +kernel
  have hidle : s.bench.cache.Idle := Cache.idle_of_all (by decide +kernel)
  have hlisted : (s.bench.cache.current? k).map (·.record.dependencies) =
      some [Sample.article] := by decide +kernel
  have hstill : (last.bench.cache.content? k).isSome := by decide +kernel
  obtain ⟨f, hf, hdependencies⟩ := Option.map_eq_some_iff.1 hlisted
  have huses : f.record.uses Sample.article := by
    refine ⟨Sample.article, ?_, rfl⟩
    rw [hdependencies]
    exact List.mem_singleton_self _
  obtain ⟨component, -, hleft⟩ :=
    (dependents_dropped_up_to_the_failing_component Sample.misprint Sample.bothServed
      [.resume 2, .resume 2] 2 Sample.article 1 rfl hstart (by decide +kernel) (by decide +kernel)
      hidle (by decide)).2 _ hfailed
  obtain ⟨houtlives, hdropped⟩ := hleft k f rfl hf huses
  refine ⟨hfailed, f, hf, huses, ?_⟩
  -- The slot is not vacant, so it is one of those that are left.
  by_cases h : Outlives Sample.article component k
  · exact houtlives h
  · rw [(hdropped h).1] at hstill
    cases hstill

end Session

end HotComponents
