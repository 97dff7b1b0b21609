import HotComponents.Proofs.Session.Commuting
import HotComponents.Proofs.Session.Stale

/-!
# Changes that are reported again

A change is answered while nothing else happens, and then the same file is reported to have changed
once more, with a later time. Behind the first answer each component that the second one has to make
anew is what it is made into, whatever the first one has done to the dependents of the file: a
component that was not made anew depends on the file only if it did so before, and then it was made
anew. So the second answer makes each of them into itself.

* `ended_of_turns`: an answer that meets no other compile ends, after so many turns;
* `UpToDate`: the components that a change has made anew are what they are made into;
* `upToDate_of_answers`: they are behind an answer that ended well;
* `answering_again_changes_nothing`: the second answer ends well, reports nothing and leaves all
  records and dependents as they are.
-/

namespace HotComponents

open ModuleId

theorem Making.turnsLeft_pos (pauses : Nat) (making : Making) : 0 < making.turnsLeft pauses := by
  unfold turnsLeft
  split <;> omega

namespace Session

open Workbench

variable {s s₁ y : Session} {i pauses timestamp later : Nat} {file f component : FilePath} {k : Key}
  {item : UpdateItem} {stage : Stage} {compile : CompileInput → CompileResult}
  {ids : List String}

/-! ## Answers end -/

/-- The turns that an answer can take until it has ended, at each stage: each item that is still to
be done takes no more than reading and compiling a component. -/
def turnsToAnswer (s : Session) (file : FilePath) (pauses : Nat) : Stage → Nat
  | .fresh _ => (pauses + 2) * (s.itemsFor file).length + 1
  | .updating u _ _ (some making) => making.turnsLeft pauses + (pauses + 2) * u.rest.length
  | _ => 0

/-- When an answer goes on to some items, it has no more turns left than these can take. -/
theorem turnsToAnswer_drain (s : Session) (pauses : Nat) (file f : FilePath)
    (affected : List String) (items : List UpdateItem) (hs : (y.stage? i).isSome)
    (hidle : y.bench.cache.Idle) :
    ∃ stage, (y.drain i f affected items).stage? i = some stage ∧
      s.turnsToAnswer file pauses stage ≤ (pauses + 2) * items.length := by
  induction items generalizing y with
  | nil => exact ⟨_, stage?_setStage_self hs _, Nat.zero_le _⟩
  | cons item rest ih =>
    -- Items that need no recompute are gone through within the turn.
    have hskip : (pauses + 2) * rest.length ≤ (pauses + 2) * (item :: rest).length :=
      Nat.mul_le_mul_left _ (Nat.le_succ _)
    -- One that does takes a turn to read, one for each pause and one to end.
    have hstart (component : FilePath) : ∃ stage,
        (y.startRecompute i ⟨f, rest, affected⟩ component).stage? i = some stage ∧
          s.turnsToAnswer file pauses stage ≤ (pauses + 2) * (item :: rest).length := by
      refine ⟨_, (startRecompute_of_idle hs hidle _ component).1, ?_⟩
      rw [turnsToAnswer, Making.turnsLeft, List.length_cons, Nat.mul_succ, Nat.add_comm]
    cases item with
    | component component => exact hstart component
    | mention count =>
      obtain ⟨stage, hstage, hless⟩ := ih (y := y.say _) hs hidle
      exact ⟨stage, hstage, hless.trans hskip⟩
    | dependent l =>
      unfold drain
      split
      · obtain ⟨stage, hstage, hless⟩ :=
          ih (y := y.act (.invalidateKey l)) hs (hidle.invalidateKey l)
        exact ⟨stage, hstage, hless.trans hskip⟩
      · split
        · exact hstart l.file
        · obtain ⟨stage, hstage, hless⟩ := ih hs hidle
          exact ⟨stage, hstage, hless.trans hskip⟩

/-- Each turn of an answer that has not ended leaves it fewer turns. -/
theorem turnsToAnswer_resume (h : s.Calm file timestamp) (hsweeps : Sweeps s i file timestamp y)
    (hy : Gathers s i file timestamp pauses compile y) (hs : y.stage? i = some stage)
    (hopen : stage.hasEnded = false) :
    ∃ next, (y.resume i).stage? i = some next ∧
      s.turnsToAnswer file pauses next < s.turnsToAnswer file pauses stage := by
  cases hy with
  | fresh hstage hbench hseen hsteady =>
    cases hs.symm.trans hstage
    have hhot : y.options.hot := hsteady.options ▸ h.hot
    have hnew : y.isStale file timestamp = false := (isStale_congr hseen _ _).trans h.new
    obtain ⟨hidle, -⟩ := swept_receive hbench h.idle file timestamp
    have hsome : ((y.receive file timestamp).stage? i).isSome := by
      rw [(trims_receive y file timestamp).stage?, hs]
      rfl
    rw [resume_eq hstage, resumeFrom, begin, startChange_eq hhot hnew, hbench]
    dsimp only
    split
    · exact ⟨_, stage?_setStage_self hsome _, Nat.succ_pos _⟩
    · obtain ⟨next, hnext, hless⟩ := turnsToAnswer_drain s pauses file file []
        (s.itemsFor file) hsome hidle
      exact ⟨next, hnext, Nat.lt_succ_of_le hless⟩
  | @making u component n making done item hitems hfile hitem hstage htries hbehind hsteady =>
    cases hs.symm.trans hstage
    obtain ⟨z, htasks, hbench, -, htried⟩ := resume_of_tries hsteady htries hstage
    have hsome : (z.stage? i).isSome := by
      rw [stage?, htasks]
      exact Option.isSome_of_eq_some hstage
    generalize y.resume i = after at htried ⊢
    -- A compile that goes on has a pause less ahead; one that ends leaves the items behind it.
    cases htried with
    | suspended _ hfewer =>
      exact ⟨_, stage?_setStage_self hsome _, Nat.add_lt_add_right hfewer _⟩
    | @ended outcome _ =>
      have hpos := making.turnsLeft_pos pauses
      obtain ⟨t, d, hcall, hpending, honly⟩ := hsweeps.of_updating hstage
      cases outcome with
      | error e =>
        rw [finishRecompute_error hcall hbench]
        exact ⟨_, stage?_setStage_self hsome _, Nat.add_pos_left hpos _⟩
      | ok r =>
        have hidle := idle_of_landed (y := z.act (.finish n (.ok r))) hcall hpending honly
          (by rw [bench_act, hbench])
        rw [finishRecompute_ok hcall hbench]
        obtain ⟨next, hnext, hless⟩ := turnsToAnswer_drain
          (y := ((z.act (.finish n (.ok r))).act (.invalidateKey ⟨component, .ssr⟩)).say _)
          s pauses file u.file _ u.rest hsome (hidle.invalidateKey _)
        exact ⟨next, hnext, lt_of_le_of_lt hless (Nat.lt_add_of_pos_left hpos)⟩
  | ended hstage =>
    cases hs.symm.trans hstage
    cases hopen
  | failed _ _ _ hstage =>
    cases hs.symm.trans hstage
    cases hopen

/-- An answer that meets no other compile has ended after so many turns. -/
theorem ended_of_turns (h : s.Calm file timestamp) (hsweeps : Sweeps s i file timestamp y)
    (hy : Gathers s i file timestamp pauses compile y) (hs : y.stage? i = some stage)
    {turns : Nat} (hturns : s.turnsToAnswer file pauses stage ≤ turns) :
    ∃ last, (y.run (List.replicate turns (.resume i))).stage? i = some last ∧ last.hasEnded := by
  induction turns generalizing y stage with
  -- No turn is left, but a task that is still open could take one.
  | zero =>
    refine ⟨stage, hs, ?_⟩
    rw [← Bool.not_eq_false]
    intro hopen
    obtain ⟨_, _, hless⟩ := turnsToAnswer_resume h hsweeps hy hs hopen
    omega
  | succ turns ih =>
    cases hended : stage.hasEnded with
    | true => exact ⟨stage, ended_run hs hended _, hended⟩
    | false =>
      obtain ⟨next, hnext, hless⟩ := turnsToAnswer_resume h hsweeps hy hs hended
      rw [List.replicate_succ]
      exact ih (sweeps_resume h hsweeps) (gathers_resume h hsweeps hy) hnext (by omega)

/-! ## Times -/

/-- While nothing but an answer happens, a change that is later than the one it answers to does not
become stale. -/
theorem isStale_run_of_gathers (h : s.Calm file timestamp) (hhot : y.options.hot)
    (hlater : timestamp < later) (hnew : y.isStale file later = false)
    (hsweeps : Sweeps s i file timestamp y) (hy : Gathers s i file timestamp pauses compile y)
    (turns : Nat) :
    (y.run (List.replicate turns (.resume i))).isStale file later = false := by
  induction turns generalizing y with
  | zero => exact hnew
  | succ turns ih =>
    obtain ⟨hhot', hstale⟩ := isStale_apply hhot (.resume i)
    rw [List.replicate_succ]
    refine ih hhot' ?_ (sweeps_resume h hsweeps) (gathers_resume h hsweeps hy)
    rw [← Bool.not_eq_true, hstale, hnew]
    rintro (hold | ⟨j, g, u, ⟨hj, hstage⟩, -, hle⟩)
    · cases hold
    · -- The only change that can come to its first turn here is the one that is answered.
      cases hj
      cases hy with
      | fresh hstage' =>
        cases hstage.symm.trans hstage'
        omega
      | making _ _ _ hstage' => cases hstage.symm.trans hstage'
      | ended hstage' => cases hstage.symm.trans hstage'
      | failed _ _ _ hstage' => cases hstage.symm.trans hstage'

/-! ## Answers that have nothing new to make -/

/-- What is to be done for a change of the file has been done already: the components that are to be
made anew are what they are made into, and the slots of the server that are to be emptied are empty.
-/
structure UpToDate (s : Session) (file : FilePath) (compile : CompileInput → CompileResult) :
    Prop where
  made : ∀ {item : UpdateItem} {component : FilePath}, item ∈ s.itemsFor file →
    item.remakes? = some component →
    s.makes? compile component = s.bench.cache.peek ⟨component, .dom⟩
  emptied : ∀ {k : Key}, k.target = .ssr → s.sweptBy file (s.itemsFor file) k →
    s.bench.cache.peek k = none

section UpToDate

variable {c : Cache} (hcurrent : s.UpToDate file compile)
include hcurrent

/-- Nothing is stale by components that were made into themselves. -/
theorem UpToDate.ids_eq_nil (hbehind : Behind s compile (s.itemsFor file) c ids) : ids = [] := by
  refine List.eq_nil_iff_forall_not_mem.2 fun id hid => ?_
  obtain ⟨item, component, previous, r, hmem, hremakes, hprevious, hmakes, hstale⟩ :=
    hbehind.gathered.1 hid
  rw [hcurrent.made hmem hremakes, hprevious] at hmakes
  cases hmakes
  rw [staleIds_self] at hstale
  cases hstale

/-- All records are left as they are. -/
theorem UpToDate.peek_eq (hbehind : Behind s compile (s.itemsFor file) c ids) (hidle : c.Idle)
    (hswept : s.bench.cache.Swept (s.sweptBy file (s.itemsFor file)) c) (k : Key) :
    c.peek k = s.bench.cache.peek k := by
  cases hk : k.target with
  | dom =>
    by_cases hconcerned : ∃ item ∈ s.itemsFor file, item.concerns k
    · obtain ⟨item, hmem, hconcerns⟩ := hconcerned
      -- The component of the slot is made into the record that is there.
      obtain ⟨component, hremakes, hslot⟩ := UpdateItem.exists_remakes? hconcerns hk
      obtain ⟨r, hmakes, hr⟩ := hbehind.made hmem hremakes
      rw [← Cache.peek_congr hslot, ← Cache.peek_congr hslot, hidle.peek_eq, hr, ← hmakes,
        hcurrent.made hmem hremakes]
    · rw [hidle.peek_eq]
      refine hbehind.kept hk fun item hmem => ?_
      rw [← Bool.not_eq_true]
      exact fun hconcerns => hconcerned ⟨item, hmem, hconcerns⟩
  | ssr =>
    rw [Cache.peek, hswept.server hk]
    by_cases hempty : s.sweptBy file (s.itemsFor file) k
    · rw [if_pos hempty, hcurrent.emptied hk hempty]
    · rw [if_neg hempty, Cache.peek]

end UpToDate

/-! ## The first answer -/

section First

variable (h : s.Calm f timestamp) (hfirst : s₁.Calm f later)
  (hbehind : Behind s compile (s.itemsFor f) s₁.bench.cache ids)
  (hswept : s.bench.cache.Swept (s.sweptBy f (s.itemsFor f)) s₁.bench.cache)
include h hfirst hbehind

/-- A component that another change of the file is to make anew has been made anew by the first
answer: otherwise its record is as it was, and with that the first answer was to make it anew. -/
theorem concerned_of_remakes? (hmem : item ∈ s₁.itemsFor f)
    (hitem : item.remakes? = some component) :
    ∃ item' ∈ s.itemsFor f, item'.concerns ⟨component, .dom⟩ := by
  obtain ⟨r, hr, hwhy⟩ := hfirst.peek_of_remakes? hmem hitem
  -- A record that no item concerns is still the old one, and the old worklist would name it.
  by_contra hnone
  have hkept : s.bench.cache.peek ⟨component, .dom⟩ = some r := by
    rw [← hr, hfirst.idle.peek_eq]
    refine (hbehind.kept rfl fun item' hmem' => ?_).symm
    rw [← Bool.not_eq_true]
    exact fun hconcerns => hnone ⟨item', hmem', hconcerns⟩
  rcases hwhy with rfl | ⟨hlisted, huses⟩
  · have hown := component_mem_itemsFor.2 ⟨Option.isSome_of_eq_some hkept, rfl⟩
    exact hnone ⟨_, hown, Key.same_iff.2 rfl⟩
  · obtain ⟨filed, hfiled, rfl⟩ := Option.map_eq_some_iff.1 ((h.idle.peek_eq _).symm.trans hkept)
    obtain ⟨l, hl, hslot⟩ := (own_or_listed h hfiled huses).resolve_left (hfirst.other hlisted)
    exact hnone ⟨_, hl, Key.same_iff.2 hslot⟩

/-- So it is made into the record that it has. -/
theorem makes?_of_remakes? (hspelled : s₁.bench.cache.Spelled) (hmem : item ∈ s₁.itemsFor f)
    (hitem : item.remakes? = some component) :
    s.makes? compile component = s₁.bench.cache.peek ⟨component, .dom⟩ := by
  obtain ⟨item', hmem', hconcerns⟩ := concerned_of_remakes? h hfirst hbehind hmem hitem
  obtain ⟨component', hremakes, hslot⟩ := UpdateItem.exists_remakes? hconcerns rfl
  obtain ⟨r, hmakes, hcurrent⟩ := hbehind.made hmem' hremakes
  rw [← hfirst.idle.peek_eq, Cache.peek_congr hslot] at hcurrent
  obtain ⟨r', hr, hwhy⟩ := hfirst.peek_of_remakes? hmem hitem
  cases hcurrent.symm.trans hr
  -- The two spellings of the component agree.
  have hsame : component' = component := by
    rcases hwhy with rfl | ⟨hlisted, -⟩
    · cases item' with
      | mention count => cases hremakes
      | component file' =>
        cases hremakes
        exact (component_mem_itemsFor.1 hmem').2
      | dependent l =>
        obtain ⟨-, rfl⟩ := UpdateItem.remakes?_dependent hremakes
        have hother := h.other hmem'
        exact absurd (congrArg Prod.fst hslot).symm hother
    · exact (file_of_makes? hmakes).symm.trans (hfirst.file_of_listed hspelled hlisted hr)
  rw [hr, ← hsame, hmakes]

include hswept in
/-- And what another change of the file is to empty is empty. -/
theorem peek_of_sweptBy (hk : k.target = .ssr) (hagain : s₁.sweptBy f (s₁.itemsFor f) k) :
    s₁.bench.cache.peek k = none := by
  have hempty {l : Key} (hl : l.target = .ssr) (hgone : s.sweptBy f (s.itemsFor f) l) :
      s₁.bench.cache.peek l = none := by
    rw [Cache.peek, hswept.server hl, if_pos hgone]
  by_cases hown : f.components = k.file.components
  · exact hempty hk (sweptBy_own hk hown id)
  · rw [sweptBy, Bool.or_eq_true, Bool.and_eq_true, List.any_eq_true] at hagain
    rcases hagain with ⟨-, hsame⟩ | ⟨item, hmem, hempties⟩
    · exact absurd (congrArg Prod.fst (Key.same_iff.1 hsame)) hown
    cases item with
    | mention count => cases hempties
    | component file' =>
      obtain ⟨-, rfl⟩ := component_mem_itemsFor.1 hmem
      exact absurd (congrArg Prod.fst (Key.same_iff.1 hempties)) hown
    | dependent l =>
      have hslot : (⟨l.file, .ssr⟩ : Key).slot = k.slot := Key.same_iff.1 hempties
      rw [← Cache.peek_congr hslot]
      cases htarget : l.target with
      | dom =>
        have hremakes : (UpdateItem.dependent l).remakes? = some l.file := by
          simp only [UpdateItem.remakes?, htarget]
        obtain ⟨item', hmem', hconcerns⟩ :=
          concerned_of_remakes? h hfirst hbehind hmem hremakes
        refine hempty rfl ?_
        rw [sweptBy, Bool.or_eq_true, List.any_eq_true]
        exact .inr ⟨item', hmem', UpdateItem.empties_of_concerns hconcerns⟩
      | ssr =>
        -- The server's record of a dependent would be as it was, but those are gone.
        obtain ⟨filed, hfiled, huses, -⟩ := hfirst.dependent hmem
        refine hempty rfl ?_
        have hself : (⟨l.file, .ssr⟩ : Key) = l := by rw [← htarget]
        rw [hself]
        by_contra hspared
        have hcontent := hswept.server htarget
        rw [if_neg hspared] at hcontent
        have hbefore : s.bench.cache.current? l = some filed := by
          rw [← hfiled, Cache.current?, Cache.current?, hcontent]
        exact hspared (sweptBy_all h htarget hbefore huses)

end First

/-- Behind an answer that ended well, another change of the file finds nothing new to make. -/
theorem upToDate_of_answers (hreached : s.Reached) (h : s.Calm f timestamp)
    (hobeys : s.compiler.Obeys pauses compile) (ha : s.Answers f timestamp ids s₁)
    (hlater : timestamp < later) :
    s₁.Calm f later ∧ s₁.UpToDate f compile ∧ s₁.compiler.Obeys pauses compile := by
  obtain ⟨hidle, hswept, hbehind, hsteady⟩ := behind_of_answers h hobeys ha
  have horderly := (hreached.answers ha).orderly
  -- The first change was accepted at its own time, so a later one is accepted as well.
  have hnew : s₁.isStale f later = false := by
    obtain ⟨name, turns, outcome, rfl, -, -⟩ := ha
    obtain ⟨hsweeps, hgathers⟩ := course_of_answer h hobeys name 0
    refine isStale_run_of_gathers h (y := s.startTask name (.change f timestamp)) h.hot hlater ?_
      hsweeps hgathers turns
    have hnew := h.new
    rw [← Bool.not_eq_true, isStale_iff] at hnew ⊢
    rintro ⟨last, hlast, hle⟩
    exact hnew ⟨last, hlast, hlater.le.trans hle⟩
  have hfirst : s₁.Calm f later := ⟨hsteady.options ▸ h.hot, hnew, hidle, horderly.mirrors⟩
  refine ⟨hfirst, ⟨fun hmem hitem => ?_, fun hk hagain => ?_⟩, hsteady.obeys⟩
  · rw [hsteady.makes?_eq]
    exact makes?_of_remakes? h hfirst hbehind horderly.spelled hmem hitem
  · exact peek_of_sweptBy h hfirst hbehind hswept hk hagain

/-! ## The second answer -/

/-- An answer that finds nothing new to make ends well, reports nothing and leaves all records. -/
theorem answer_of_upToDate (h : s.Calm file timestamp) (hcurrent : s.UpToDate file compile)
    (hobeys : s.compiler.Obeys pauses compile) (name : String) {turns : Nat}
    (hturns : (pauses + 2) * (s.itemsFor file).length + 1 ≤ turns) :
    let s' := s.run (.start name (.change file timestamp) ::
      List.replicate turns (.resume s.tasks.length))
    s'.stage? s.tasks.length = some (.done (.updated
      (if (s.itemsFor file).isEmpty then .notLoaded else .affected []))) ∧
    s'.bench.cache.Idle ∧ ∀ k, s'.bench.cache.peek k = s.bench.cache.peek k := by
  intro s'
  obtain ⟨hswept, hgathers⟩ := course_of_answer h hobeys name turns
  have hended : ∃ last, s'.stage? s.tasks.length = some last ∧ last.hasEnded := by
    obtain ⟨hsweeps, hstarted⟩ := course_of_answer h hobeys name 0
    exact ended_of_turns h hsweeps hstarted (stage?_startTask_new s name _) hturns
  obtain ⟨last, hlast, hended⟩ := hended
  cases hgathers with
  | fresh hstage =>
    cases hlast.symm.trans hstage
    cases hended
  | making _ _ _ hstage =>
    cases hlast.symm.trans hstage
    cases hended
  | failed hmem hitem hmakes hstage =>
    -- Every component that is to be made anew is made into the record that it has.
    obtain ⟨r, hr, -⟩ := h.peek_of_remakes? hmem hitem
    rw [hcurrent.made hmem hitem, hr] at hmakes
    cases hmakes
  | ended hstage hidle houtcome hbehind _ =>
    rw [hcurrent.ids_eq_nil hbehind] at houtcome
    rw [← houtcome]
    exact ⟨hstage, hidle, hcurrent.peek_eq hbehind hidle (hswept.of_updated hstage)⟩

/-- A change that is reported again changes nothing. Take a session as any run has left it that put
no record into the cache from outside, with no slot pending, and let its compiler follow a rule. Let
a file change at a time that is not stale, and let the change be answered well while nothing else
happens. Then a change of the same file at any later time, which is answered next, is answered well
after enough turns and reports no module: what it comes to is that nothing is affected or, if there
is neither a record of the file for the browser nor one that depends on the file, that nothing is
loaded. And it leaves the record of every key and the dependents of every file as they are. -/
theorem answering_again_changes_nothing (start : Session) (before : List Event) (pauses : Nat)
    (compile : CompileInput → CompileResult) (f : FilePath) (t₁ t₂ : Nat) (ids : List String)
    (s₁ : Session) :
    let s := start.run before
    start.bench = {} → start.tasks = [] → (∀ e ∈ before, e.putsNothing) →
    s.compiler.Obeys pauses compile → s.bench.cache.Idle → s.isStale f t₁ = false →
    s.Answers f t₁ ids s₁ → t₁ < t₂ →
    ∀ name, ∃ enough, ∀ turns, enough ≤ turns →
      let s₂ := s₁.run (.start name (.change f t₂) ::
        List.replicate turns (.resume s₁.tasks.length))
      (∃ outcome, s₂.stage? s₁.tasks.length = some (.done (.updated outcome)) ∧
        (outcome = .affected [] ∨ outcome = .notLoaded) ∧
        (s.options.hot → (outcome = .notLoaded ↔
          s₁.bench.cache.peek ⟨f, .dom⟩ = none ∧ s₁.bench.cache.dependents f = []))) ∧
      s₂.bench.cache.Idle ∧ (∀ k, s₂.bench.cache.peek k = s₁.bench.cache.peek k) ∧
      ∀ file, s₂.bench.cache.dependents file = s₁.bench.cache.dependents file := by
  intro s hbench htasks he hobeys hidle hnew h₁ hlater name
  have hreached : s.Reached := ⟨start, before, hbench, htasks, he, rfl⟩
  have hreached₁ := hreached.answers h₁
  by_cases hhot : s.options.hot
  · have hcalm : s.Calm f t₁ := ⟨hhot, hnew, hidle, hreached.orderly.mirrors⟩
    obtain ⟨hcalm₁, hcurrent, hobeys₁⟩ := upToDate_of_answers hreached hcalm hobeys h₁ hlater
    refine ⟨(pauses + 2) * (s₁.itemsFor f).length + 1, fun turns hturns => ?_⟩
    intro s₂
    obtain ⟨hended, hidle₂, hrecords⟩ := answer_of_upToDate hcalm₁ hcurrent hobeys₁ name hturns
    have horderly := hreached₁.orderly
    have horderly₂ := (hreached₁.answers ⟨name, turns, _, rfl, hended, rfl⟩).orderly
    refine ⟨⟨_, hended, ?_, fun _ => ?_⟩, hidle₂, hrecords, fun file => ?_⟩
    · split
      · exact .inr rfl
      · exact .inl rfl
    · have hnothing : (s₁.itemsFor f).isEmpty ↔
          s₁.bench.cache.peek ⟨f, .dom⟩ = none ∧ s₁.bench.cache.dependents f = [] := by
        simp [isEmpty_itemsFor]
      rw [← hnothing]
      split
      · next hempty => simp [hempty]
      · next hempty => simp [hempty]
    · refine Cache.dependents_congr horderly₂.mirrors horderly.mirrors horderly₂.spelled
        horderly.spelled (fun k => ?_) file
      rw [← hidle₂.peek_eq, ← hcalm₁.idle.peek_eq, hrecords]
  · -- Without hot updates an answer ends in its first turn.
    have hcold : s.options.hot = false := by simpa using hhot
    obtain ⟨hbench₁, hoptions₁, -⟩ := answers_of_not_hot hcold h₁
    refine ⟨1, fun turns hturns => ?_⟩
    obtain ⟨more, rfl⟩ := Nat.exists_eq_add_of_le' hturns
    intro s₂
    have hstarted := stage?_startTask_new s₁ name (.change f t₂)
    have hrun : s₂ = (s₁.startTask name (.change f t₂)).endTask s₁.tasks.length
        (.updated .notLoaded) := run_of_not_hot (hoptions₁ ▸ hcold) name more
    have hbench₂ : s₂.bench = s₁.bench := by
      rw [hrun]
      rfl
    have hended : s₂.stage? s₁.tasks.length = some (.done (.updated .notLoaded)) := by
      rw [hrun]
      exact stage?_setStage_self (Option.isSome_of_eq_some hstarted) _
    refine ⟨⟨_, hended, .inr rfl, fun hon => absurd hon hhot⟩, ?_, fun k => ?_, fun file => ?_⟩
    · rw [hbench₂, hbench₁]
      exact hidle
    · rw [hbench₂]
    · rw [hbench₂]

/-- The first answer makes both components anew, and behind it the second one no longer depends on
the first one. A change of the first one that is reported again makes only that one into itself. -/
theorem answering_again_changes_nothing_reversed :
    let s := Sample.reversing.run Sample.oldLoaded
    let s₁ := Sample.answered s Sample.child 3
    s.Answers Sample.child 1 ["/app/Child.svelte", "/app/Parent.svelte"] s₁ ∧
    ⟨Sample.parent, .dom⟩ ∈ s.bench.cache.dependents Sample.child ∧
    s₁.bench.cache.dependents Sample.child = [] ∧
    ∀ name, ∃ enough, ∀ turns, enough ≤ turns →
      let s₂ := s₁.run (.start name (.change Sample.child 2) ::
        List.replicate turns (.resume s₁.tasks.length))
      s₂.stage? s₁.tasks.length = some (.done (.updated (.affected []))) ∧
      (∀ k, s₂.bench.cache.peek k = s₁.bench.cache.peek k) ∧
      ∀ file, s₂.bench.cache.dependents file = s₁.bench.cache.dependents file := by
  intro s s₁
  have h₁ : s.Answers Sample.child 1 ["/app/Child.svelte", "/app/Parent.svelte"] s₁ :=
    ⟨"change", 3, .affected ["/app/Child.svelte", "/app/Parent.svelte"], rfl, by decide +kernel, rfl⟩
  have hobeys : s.compiler.Obeys 0 Sample.reversal :=
    obeys_run (attended_start rfl) ⟨rfl, rfl, rfl⟩ (by decide)
  have hloaded : s₁.bench.cache.peek ⟨Sample.child, .dom⟩ ≠ none := by decide +kernel
  refine ⟨h₁, by decide +kernel, by decide +kernel, fun name => ?_⟩
  obtain ⟨enough, hagain⟩ :=
    answering_again_changes_nothing Sample.reversing Sample.oldLoaded 0 Sample.reversal
      Sample.child 1 2 _ s₁ rfl rfl (by decide) hobeys (Cache.idle_of_all (by decide +kernel))
      (by decide +kernel) h₁ (by decide) name
  refine ⟨enough, fun turns hturns => ?_⟩
  obtain ⟨⟨outcome, hended, rfl | rfl, hnothing⟩, -, hrecords, hdependents⟩ := hagain turns hturns
  · exact ⟨hended, hrecords, hdependents⟩
  · exact absurd ((hnothing rfl).1 rfl).1 hloaded

end Session

end HotComponents
