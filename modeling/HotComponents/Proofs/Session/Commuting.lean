import HotComponents.Proofs.Cache.Refreshed
import HotComponents.Proofs.Session.Remaking

/-!
# Changes of different files in either order

Two files change, and each change is answered while nothing else happens. The first answer can
change who depends on whom, and with that what the second one has to do: it can make a component
anew that the first one has made anew already, or find that a record of the server's is gone. If the
compiler follows a rule, what is left in the end is the same for either order, and so is what is
reported.

* `orderly_run`: in every run dependents are spelled like their records;
* `sweptBy_iff_concerns`: which records of the server's an answer has dropped in the end;
* `refreshed_of_answers`: what an answer that ends well makes of the cache, and what it reports;
* `changes_of_different_files_commute`: two changes in either order.
-/

namespace HotComponents

open ModuleId

namespace Session

open Workbench

variable {s s' : Session} {i pauses timestamp : Nat} {file : FilePath} {k : Key}
  {events : List Event} {compile : CompileInput → CompileResult} {ids : List String}

/-! ## Sessions that have been reached -/

/-- The dependents of a file are those who use it, and they are spelled like their records. -/
structure Orderly (w : Workbench) : Prop where
  sound : Sound w
  mirrors : w.cache.Mirrors
  spelled : w.cache.Spelled

theorem orderly_empty : Orderly {} := by
  refine ⟨sound_empty, Cache.mirrors_empty, ?_⟩
  intro file l f hl
  cases hl

theorem Orderly.quiet {w : Workbench} {m : Move} (h : Orderly w) (hm : bringsNothing m) :
    Orderly (w.apply m) := by
  refine ⟨sound_step h.sound (step_apply w m), mirrors_apply h.sound h.mirrors m,
    spelled_apply h.sound h.mirrors h.spelled ?_⟩
  rintro j t leader d r rfl
  cases hm

/-- A task stores records of the files that it has compiled. -/
theorem Orderly.deed {after : Compiler} {w : Workbench} {m : Move} (h : Orderly w)
    (hdeed : s.Deed after i w m) : Orderly (w.apply m) := by
  -- A record that is stored names the file that was compiled, which is the file of its key.
  refine ⟨sound_step h.sound (step_apply w m), mirrors_apply h.sound h.mirrors m,
    spelled_apply h.sound h.mirrors h.spelled ?_⟩
  intro j t leader d r hmove hleader hleads
  cases hdeed with
  | @compiled n t' intent d' input result hown halone hends hcall =>
    obtain ⟨rfl, houtcome⟩ := Move.finish.inj hmove
    cases hcall.symm.trans hleader
    cases hjudge : s.options.judge input result with
    | error e =>
      rw [hjudge] at houtcome
      cases houtcome
    | ok r' =>
      rw [hjudge] at houtcome
      cases houtcome
      exact file_of_judge hjudge
  | unread => cases hmove
  | _ => cases hmove

/-- What a run preserves. -/
theorem orderly_run (h : Attended s) (he : ∀ e ∈ events, e.putsNothing) (hs : Orderly s.bench) :
    Orderly (s.run events).bench := by
  induction events generalizing s with
  | nil => exact hs
  | cons e events ih =>
    rw [List.forall_mem_cons] at he
    refine ih (attended_apply h he.1) he.2 ?_
    exact holds_apply h he.1 hs (fun hm hw => hw.quiet hm) fun _ _ hdeed hw => hw.deed hdeed

/-- Some session with an empty cache and without tasks has been run, and no record was put into the
cache from outside. -/
def Reached (s : Session) : Prop :=
  ∃ (start : Session) (events : List Event), start.bench = {} ∧ start.tasks = [] ∧
    (∀ e ∈ events, e.putsNothing) ∧ s = start.run events

theorem Reached.run (h : s.Reached) (he : ∀ e ∈ events, e.putsNothing) :
    (s.run events).Reached := by
  obtain ⟨start, before, hbench, htasks, hbefore, rfl⟩ := h
  exact ⟨start, before ++ events, hbench, htasks, List.forall_mem_append.2 ⟨hbefore, he⟩,
    (run_append start before events).symm⟩

theorem Reached.orderly (h : s.Reached) : Orderly s.bench := by
  obtain ⟨start, events, hbench, htasks, he, rfl⟩ := h
  refine orderly_run (attended_start htasks) he ?_
  rw [hbench]
  exact orderly_empty

/-! ## What an answer makes of the cache -/

/-- An item is about a slot of the browser only if the change concerns the slot and there is a
record in it. -/
theorem Familiar.concerns_of_item (h : s.Familiar file timestamp) {item : UpdateItem}
    (hmem : item ∈ s.itemsFor file) (hk : k.target = .dom) (hitem : item.concerns k) :
    (s.bench.cache.peek k).isSome ∧ s.bench.cache.Concerns file k := by
  obtain ⟨component, hremakes, hslot⟩ := UpdateItem.exists_remakes? hitem hk
  obtain ⟨r, hr, -, huses⟩ := h.peek_of_remakes? hmem hremakes
  rw [Cache.peek_congr hslot] at hr
  refine ⟨Option.isSome_of_eq_some hr, huses.imp ?_ fun huses => ⟨r, hr, huses⟩⟩
  exact fun hown => hown.trans (congrArg Prod.fst hslot)

/-- A record that depends on the file is that of one of the file's dependents, if it is not the
file's own. -/
theorem Familiar.exists_dependent (h : s.Familiar file timestamp) {r : Record}
    (hr : s.bench.cache.peek k = some r) (huses : r.uses file)
    (hother : file.components ≠ k.file.components) :
    ∃ l, .dependent l ∈ s.itemsFor file ∧ l.slot = k.slot := by
  obtain ⟨f, hf, rfl⟩ := Option.map_eq_some_iff.1 ((h.idle.peek_eq k).symm.trans hr)
  exact (own_or_listed h.toCalm hf huses).resolve_left hother

/-- An answer that is through with all there is to do has dropped a record of the server's if the
change concerns its slot or that of its component for the browser, and no other. -/
theorem sweptBy_iff_concerns (h : s.Familiar file timestamp) (hk : k.target = .ssr) :
    s.sweptBy file (s.itemsFor file) k ↔
      s.bench.cache.Concerns file ⟨k.file, .dom⟩ ∨ s.bench.cache.Concerns file k := by
  constructor
  · intro hswept
    rw [sweptBy, Bool.or_eq_true, Bool.and_eq_true, List.any_eq_true] at hswept
    rcases hswept with ⟨-, hown⟩ | ⟨item, hmem, hempties⟩
    · exact .inr (.inl (congrArg Prod.fst (Key.same_iff.1 hown)))
    · cases item with
      | mention count => cases hempties
      | component file' =>
        obtain ⟨-, rfl⟩ := component_mem_itemsFor.1 hmem
        exact .inr (.inl (congrArg Prod.fst (Key.same_iff.1 hempties)))
      | dependent l =>
        -- The slot is that of a dependent, for the server or for the browser.
        obtain ⟨f, hf, huses, -⟩ := h.dependent hmem
        have hpeek : s.bench.cache.peek l = some f.record := by
          rw [h.idle.peek_eq, hf]
          rfl
        have hfile : l.file.components = k.file.components :=
          congrArg Prod.fst (Key.same_iff.1 hempties)
        cases htarget : l.target with
        | dom =>
          have hslot : l.slot = (⟨k.file, .dom⟩ : Key).slot := Prod.ext hfile htarget
          exact .inl (.inr ⟨_, (Cache.peek_congr hslot).symm.trans hpeek, huses⟩)
        | ssr =>
          have hslot : l.slot = k.slot := Prod.ext hfile (htarget.trans hk.symm)
          exact .inr (.inr ⟨_, (Cache.peek_congr hslot).symm.trans hpeek, huses⟩)
  · intro hconcerns
    by_cases hown : file.components = k.file.components
    · exact sweptBy_own hk hown id
    · rcases hconcerns with (hown' | ⟨r, hr, huses⟩) | (hown' | ⟨r, hr, huses⟩)
      · exact absurd hown' hown
      · obtain ⟨l, hl, hslot⟩ := h.exists_dependent hr huses hown
        exact sweptBy_dependent hk (congrArg Prod.fst hslot) hl
      · exact absurd hown' hown
      · obtain ⟨l, hl, hslot⟩ := h.exists_dependent hr huses hown
        exact sweptBy_dependent hk (congrArg Prod.fst hslot) hl

/-- What the answer has left of the cache, and what it has gathered, when all is done. -/
theorem refreshed_of_behind {c' : Cache} (h : s.Familiar file timestamp) (hidle : c'.Idle)
    (hswept : s.bench.cache.Swept (s.sweptBy file (s.itemsFor file)) c')
    (hbehind : Behind s compile (s.itemsFor file) c' ids) :
    Cache.Refreshed (s.makes? compile) (fun r r' => s.staleIds r.file (some r) r')
      (s.bench.cache.Concerns file) s.bench.cache ids c' where
  anew {k r} hk hconcerns hr := by
    have huses := hconcerns.imp_right fun ⟨r', hr', huses⟩ => by
      cases hr.symm.trans hr'
      exact huses
    obtain ⟨item, hmem, hremakes, hslot⟩ := h.exists_remakes? hk hr huses
    obtain ⟨r', hmakes, hcurrent⟩ := hbehind.made hmem hremakes
    refine ⟨r', hmakes, ?_⟩
    rw [← Cache.peek_congr hslot, hidle.peek_eq, hcurrent]
  absent {k} hk hr := by
    rw [hidle.peek_eq, hbehind.kept hk fun item hmem => ?_, hr]
    rw [← Bool.not_eq_true]
    intro hitem
    have hloaded := (h.concerns_of_item hmem hk hitem).1
    rw [hr] at hloaded
    cases hloaded
  kept {k} hk hnot := by
    rw [hidle.peek_eq, hbehind.kept hk fun item hmem => ?_]
    rw [← Bool.not_eq_true]
    exact fun hitem => hnot (h.concerns_of_item hmem hk hitem).2
  dropped {k} hk hconcerns := by
    rw [Cache.peek, hswept.server hk, if_pos ((sweptBy_iff_concerns h hk).2 hconcerns)]
  spared {k} hk hbrowser hserver := by
    have hnot : ¬ s.sweptBy file (s.itemsFor file) k := fun hswept =>
      ((sweptBy_iff_concerns h hk).1 hswept).elim hbrowser hserver
    rw [Cache.peek, hswept.server hk, if_neg hnot, Cache.peek]
  reported {id} := by
    rw [hbehind.gathered]
    constructor
    · rintro ⟨item, component, previous, r, hmem, hremakes, hprevious, hmakes, hstale⟩
      -- The record that is replaced is spelled like the component that is made anew.
      obtain ⟨r', hr', hfile, huses⟩ := h.peek_of_remakes? hmem hremakes
      cases hprevious.symm.trans hr'
      subst hfile
      exact ⟨⟨previous.file, .dom⟩, previous, r, rfl,
        huses.imp_right fun huses => ⟨previous, hprevious, huses⟩, hprevious, hmakes, hstale⟩
    · rintro ⟨k, previous, r, hk, hconcerns, hprevious, hmakes, hstale⟩
      have huses := hconcerns.imp_right fun ⟨r', hr', huses⟩ => by
        cases hprevious.symm.trans hr'
        exact huses
      obtain ⟨item, hmem, hremakes, hslot⟩ := h.exists_remakes? hk hprevious huses
      exact ⟨item, previous.file, previous, r, hmem, hremakes,
        (Cache.peek_congr hslot).trans hprevious, hmakes, hstale⟩

/-! ## Answers that end well -/

/-- A change of a file is answered while nothing else happens to a session: the answer is started,
has its turns, ends well and reports some modules. -/
def Answers (s : Session) (file : FilePath) (timestamp : Nat) (ids : List String) (s' : Session) :
    Prop :=
  ∃ (name : String) (turns : Nat) (outcome : UpdateOutcome),
    s' = s.run (.start name (.change file timestamp) ::
      List.replicate turns (.resume s.tasks.length)) ∧
    s'.stage? s.tasks.length = some (.done (.updated outcome)) ∧ outcome.ids = ids

theorem Reached.answers (h : s.Reached) (ha : s.Answers file timestamp ids s') : s'.Reached := by
  obtain ⟨name, turns, outcome, rfl, -, -⟩ := ha
  refine h.run ?_
  intro e he
  rcases List.mem_cons.1 he with rfl | he
  · rfl
  · rw [List.eq_of_mem_replicate he]
    rfl

/-- The course of an answer that is started now, while nothing else happens. -/
theorem course_of_answer (h : s.Calm file timestamp) (hobeys : s.compiler.Obeys pauses compile)
    (name : String) (turns : Nat) :
    let y := s.run (.start name (.change file timestamp) ::
      List.replicate turns (.resume s.tasks.length))
    Sweeps s s.tasks.length file timestamp y ∧
      Gathers s s.tasks.length file timestamp pauses compile y := by
  have hstarted := stage?_startTask_new s name (.change file timestamp)
  have hsteady : Steady s file pauses compile (s.startTask name (.change file timestamp)) :=
    ⟨rfl, rfl, hobeys, fun _ _ => rfl⟩
  have hsweeps : Sweeps s s.tasks.length file timestamp
      (s.startTask name (.change file timestamp)) := .fresh hstarted rfl rfl rfl
  -- No other task takes a turn, so both accounts of the answer hold all along.
  have halone : ∀ e ∈ List.replicate turns (Event.resume s.tasks.length),
      e.isAlone s.tasks.length := by
    intro e he
    rw [List.eq_of_mem_replicate he]
    exact beq_self_eq_true _
  have hswept := sweeps_run h halone hsweeps
  exact ⟨hswept, gathers_run h hsweeps (.fresh hstarted rfl rfl hsteady) turns⟩

/-- What an answer that ends well leaves. -/
theorem behind_of_answers (h : s.Calm file timestamp) (hobeys : s.compiler.Obeys pauses compile)
    (ha : s.Answers file timestamp ids s') :
    s'.bench.cache.Idle ∧
      s.bench.cache.Swept (s.sweptBy file (s.itemsFor file)) s'.bench.cache ∧
      Behind s compile (s.itemsFor file) s'.bench.cache ids ∧ Steady s file pauses compile s' := by
  obtain ⟨name, turns, outcome, hrun, hended, rfl⟩ := ha
  obtain ⟨hswept, hgathers⟩ := course_of_answer h hobeys name turns
  rw [← hrun] at hswept hgathers
  cases hgathers with
  | ended hstage hidle _ hbehind hsteady =>
    cases hended.symm.trans hstage
    exact ⟨hidle, hswept.of_updated hstage, hbehind, hsteady⟩
  | fresh hstage => cases hended.symm.trans hstage
  | making _ _ _ hstage => cases hended.symm.trans hstage
  | failed _ _ _ hstage => cases hended.symm.trans hstage

/-- What an answer that ends well makes of the cache, and what it reports. -/
theorem refreshed_of_answers (h : s.Familiar file timestamp)
    (hobeys : s.compiler.Obeys pauses compile) (ha : s.Answers file timestamp ids s') :
    Cache.Refreshed (s.makes? compile) (fun r r' => s.staleIds r.file (some r) r')
      (s.bench.cache.Concerns file) s.bench.cache ids s'.bench.cache ∧
    s'.bench.cache.Idle ∧ Steady s file pauses compile s' := by
  obtain ⟨hidle, hswept, hbehind, hsteady⟩ := behind_of_answers h.toCalm hobeys ha
  exact ⟨refreshed_of_behind h hidle hswept hbehind, hidle, hsteady⟩

/-! ## Without hot updates -/

theorem run_replicate_of_done {result : TaskResult} (hs : s.stage? i = some (.done result))
    (turns : Nat) : s.run (List.replicate turns (.resume i)) = s := by
  have hsame : s.resume i = s := resume_eq hs
  induction turns with
  | zero => rfl
  | succ turns ih =>
    rw [List.replicate_succ]
    change (s.resume i).run _ = s
    rw [hsame]
    exact ih

/-- Without hot updates an answer ends in its first turn and has done nothing. -/
theorem run_of_not_hot (hcold : s.options.hot = false) (name : String) (turns : Nat) :
    s.run (.start name (.change file timestamp) ::
        List.replicate (turns + 1) (.resume s.tasks.length)) =
      (s.startTask name (.change file timestamp)).endTask s.tasks.length (.updated .notLoaded) := by
  have hstarted := stage?_startTask_new s name (.change file timestamp)
  -- The first turn turns the change down; the others find the task ended.
  have hturn : (s.startTask name (.change file timestamp)).resume s.tasks.length =
      (s.startTask name (.change file timestamp)).endTask s.tasks.length
        (.updated .notLoaded) := by
    rw [resume_eq hstarted]
    simp [resumeFrom, begin, startChange, startTask, hcold]
  have hdone := stage?_setStage_self (Option.isSome_of_eq_some hstarted)
    (.done (.updated .notLoaded))
  rw [List.replicate_succ]
  change ((s.startTask name _).resume _).run _ = _
  rw [hturn]
  exact run_replicate_of_done hdone turns

/-- Without hot updates an answer does nothing to the cache and reports nothing. -/
theorem answers_of_not_hot (hcold : s.options.hot = false) (ha : s.Answers file timestamp ids s') :
    s'.bench = s.bench ∧ s'.options = s.options ∧ ids = [] := by
  obtain ⟨name, turns, outcome, hrun, hended, rfl⟩ := ha
  have hstarted := stage?_startTask_new s name (.change file timestamp)
  cases turns with
  -- Without a turn the task is still fresh, so it has not answered.
  | zero =>
    rw [hrun] at hended
    cases hended.symm.trans hstarted
  | succ turns =>
    have hdone := stage?_setStage_self (Option.isSome_of_eq_some hstarted)
      (.done (.updated .notLoaded))
    rw [run_of_not_hot hcold] at hrun
    rw [hrun] at hended ⊢
    cases hended.symm.trans hdone
    exact ⟨rfl, rfl, rfl⟩

/-! ## Two changes -/

theorem Steady.makes?_eq {y : Session} (h : Steady s file pauses compile y) :
    y.makes? compile = s.makes? compile := by
  funext component
  rw [makes?, makes?, h.options, h.disk]

theorem staleIds_self (s : Session) (component : FilePath) (r : Record) :
    s.staleIds component (some r) r = [] := by
  have hnone : Change.classify r r = .none := Change.classify_eq_none_iff.2 ⟨rfl, rfl⟩
  rw [staleIds, Change.ofReplacement, Option.elim_some, hnone]
  rfl

/-- A change that is answered second finds what the first one was about to find but for the records,
and all that it needs to be answered without meeting another compile. -/
theorem Familiar.second {y : Session} {f g : FilePath} {tg : Nat} (h : s.Familiar g tg)
    (hother : f.components ≠ g.components) (hreached : y.Reached) (hidle : y.bench.cache.Idle)
    (hsteady : Steady s f pauses compile y) {touched : Key → Prop}
    (hrefreshed : Cache.Refreshed (s.makes? compile) (fun r r' => s.staleIds r.file (some r) r')
      touched s.bench.cache ids y.bench.cache) : y.Familiar g tg where
  hot := hsteady.options ▸ h.hot
  new := by
    rw [← h.new, isStale, isStale, hsteady.seen g (Ne.symm hother)]
  idle := hidle
  mirrors := hreached.orderly.mirrors
  spelled := hreached.orderly.spelled
  cached r hr := by
    obtain ⟨r₀, hr₀, hfile⟩ := hrefreshed.file_of_peek file_of_makes? rfl hr
    rw [hfile, h.cached r₀ hr₀]

/-- What two answers make of the cache, one after the other, each as the change that it answers to
would have it of the records that it finds. -/
theorem refreshed_of_two_answers {s₁ s₂ : Session} {f g : FilePath} {tf tg : Nat}
    {ids₁ ids₂ : List String} (hreached : s.Reached) (hf : s.Familiar f tf) (hg : s.Familiar g tg)
    (hobeys : s.compiler.Obeys pauses compile) (hother : f.components ≠ g.components)
    (h₁ : s.Answers f tf ids₁ s₁) (h₂ : s₁.Answers g tg ids₂ s₂) :
    Cache.Refreshed (s.makes? compile) (fun r r' => s.staleIds r.file (some r) r')
      (s.bench.cache.Concerns f) s.bench.cache ids₁ s₁.bench.cache ∧
    Cache.Refreshed (s.makes? compile) (fun r r' => s.staleIds r.file (some r) r')
      (s₁.bench.cache.Concerns g) s₁.bench.cache ids₂ s₂.bench.cache ∧
    s₂.bench.cache.Idle := by
  obtain ⟨hfirst, hidle, hsteady⟩ := refreshed_of_answers hf hobeys h₁
  have hfamiliar := hg.second hother (hreached.answers h₁) hidle hsteady hfirst
  obtain ⟨hsecond, hidle', -⟩ := refreshed_of_answers hfamiliar hsteady.obeys h₂
  have hstale : s₁.staleIds = s.staleIds := by
    funext component previous r
    rw [staleIds, staleIds, hsteady.options]
  rw [hsteady.makes?_eq, hstale] at hsecond
  exact ⟨hfirst, hsecond, hidle'⟩

/-- The order of two changes does not matter. Take a session as any run has left it that put no
record into the cache from outside, with no slot pending, and let its compiler follow a rule. Let
two different files, which are spelled as they are cached if they are, change at times that are not
stale. If the changes are answered while nothing else happens, and in either order both answers end
well, then both orders leave the same record for every key and the same dependents of every file,
and report the same modules between them. -/
theorem changes_of_different_files_commute (start : Session) (before : List Event) (pauses : Nat)
    (compile : CompileInput → CompileResult) (f g : FilePath) (tf tg : Nat)
    (s₁ s₂ t₁ t₂ : Session) (ids₁ ids₂ ids₁' ids₂' : List String) :
    let s := start.run before
    start.bench = {} → start.tasks = [] → (∀ e ∈ before, e.putsNothing) →
    s.compiler.Obeys pauses compile → s.bench.cache.Idle → f.components ≠ g.components →
    (∀ r, s.bench.cache.peek ⟨f, .dom⟩ = some r → r.file = f) →
    (∀ r, s.bench.cache.peek ⟨g, .dom⟩ = some r → r.file = g) →
    s.isStale f tf = false → s.isStale g tg = false →
    s.Answers f tf ids₁ s₁ → s₁.Answers g tg ids₂ s₂ →
    s.Answers g tg ids₁' t₁ → t₁.Answers f tf ids₂' t₂ →
    s₂.bench.cache.Idle ∧ t₂.bench.cache.Idle ∧
    (∀ k, s₂.bench.cache.peek k = t₂.bench.cache.peek k) ∧
    (∀ file, s₂.bench.cache.dependents file = t₂.bench.cache.dependents file) ∧
    ∀ id, id ∈ ids₁ ++ ids₂ ↔ id ∈ ids₁' ++ ids₂' := by
  intro s hbench htasks he hobeys hidle hother hcachedf hcachedg hnewf hnewg h₁ h₂ h₁' h₂'
  have hreached : s.Reached := ⟨start, before, hbench, htasks, he, rfl⟩
  have hcalm {file : FilePath} {timestamp : Nat} (hhot : s.options.hot)
      (hnew : s.isStale file timestamp = false) : s.Calm file timestamp :=
    ⟨hhot, hnew, hidle, hreached.orderly.mirrors⟩
  by_cases hhot : s.options.hot
  · have hf : s.Familiar f tf := ⟨hcalm hhot hnewf, hreached.orderly.spelled, hcachedf⟩
    have hg : s.Familiar g tg := ⟨hcalm hhot hnewg, hreached.orderly.spelled, hcachedg⟩
    obtain ⟨hfirst, hsecond, hidle₂⟩ :=
      refreshed_of_two_answers hreached hf hg hobeys hother h₁ h₂
    obtain ⟨hfirst', hsecond', hidle₂'⟩ :=
      refreshed_of_two_answers hreached hg hf hobeys (Ne.symm hother) h₁' h₂'
    obtain ⟨hrecords, hreported⟩ := Cache.Refreshed.comm file_of_makes?
      (fun r => staleIds_self s r.file r) hfirst hsecond hfirst' hsecond'
    have hlast := ((hreached.answers h₁).answers h₂).orderly
    have hlast' := ((hreached.answers h₁').answers h₂').orderly
    refine ⟨hidle₂, hidle₂', hrecords, fun file => ?_, hreported⟩
    refine Cache.dependents_congr hlast.mirrors hlast'.mirrors hlast.spelled hlast'.spelled ?_ file
    intro k
    rw [← hidle₂.peek_eq, ← hidle₂'.peek_eq, hrecords]
  · -- Without hot updates all stays as it is.
    have hcold : s.options.hot = false := by simpa using hhot
    obtain ⟨hbench₁, hoptions₁, rfl⟩ := answers_of_not_hot hcold h₁
    obtain ⟨hbench₁', hoptions₁', rfl⟩ := answers_of_not_hot hcold h₁'
    obtain ⟨hbench₂, -, rfl⟩ := answers_of_not_hot (hoptions₁ ▸ hcold) h₂
    obtain ⟨hbench₂', -, rfl⟩ := answers_of_not_hot (hoptions₁' ▸ hcold) h₂'
    rw [hbench₂, hbench₂', hbench₁, hbench₁']
    exact ⟨hidle, hidle, fun _ => rfl, fun _ => rfl, fun _ => Iff.rfl⟩

end Session

namespace Sample

/-- A rule by which a component is made from the second one if its text is new, and otherwise from
the first one. -/
def reversal (input : CompileInput) : CompileResult :=
  .ok { js := ⟨input.code, none⟩
        dependencies := if input.code = "new" then [parent] else [child] }

/-- A session whose compiler follows that rule. The texts of both files are new. -/
def reversing : Session where
  options := { root := ⟨"/app"⟩ }
  disk := Disk.write (Disk.write {} child "new".toUTF8.toList) parent "new".toUTF8.toList
  compiler := { kind := .rule 0 reversal }

/-- Both components are loaded with old texts, the first one also for the server, with its new
text. -/
def oldLoaded : List Session.Event :=
  [.start "child" (.transform child.text "old" .dom), .resume 0,
    .start "parent" (.transform parent.text "old" .dom), .resume 1,
    .start "server" (.transform child.text "new" .ssr), .resume 2]

/-- A change of a component is answered. -/
def answered (s : Session) (component : FilePath) (turns : Nat) : Session :=
  s.run (.start "change" (.change component 1) ::
    List.replicate turns (.resume s.tasks.length))

end Sample

namespace Session

/-- At first the second component depends on the first one, and when both have been made anew it is
the other way round. If the first one changes first, each answer makes both of them anew. If the
second one changes first, each answer makes only its own anew, and the server's record of the first
one goes because it depends on the second one. Both orders leave the same records and the same
dependents. -/
theorem changes_of_different_files_commute_reversed :
    let s := Sample.reversing.run Sample.oldLoaded
    let s₁ := Sample.answered s Sample.child 3
    let s₂ := Sample.answered s₁ Sample.parent 3
    let t₁ := Sample.answered s Sample.parent 2
    let t₂ := Sample.answered t₁ Sample.child 2
    s.Answers Sample.child 1 ["/app/Child.svelte", "/app/Parent.svelte"] s₁ ∧
    s₁.Answers Sample.parent 1 [] s₂ ∧
    s.Answers Sample.parent 1 ["/app/Parent.svelte"] t₁ ∧
    t₁.Answers Sample.child 1 ["/app/Child.svelte"] t₂ ∧
    (∀ k, s₂.bench.cache.peek k = t₂.bench.cache.peek k) ∧
    ∀ file, s₂.bench.cache.dependents file = t₂.bench.cache.dependents file := by
  intro s s₁ s₂ t₁ t₂
  have hends {y : Session} {component : FilePath} {turns : Nat} {ids : List String}
      (hended : (Sample.answered y component turns).stage? y.tasks.length =
        some (.done (.updated (.affected ids)))) :
      y.Answers component 1 ids (Sample.answered y component turns) :=
    ⟨"change", turns, _, rfl, hended, rfl⟩
  have h₁ : s.Answers Sample.child 1 ["/app/Child.svelte", "/app/Parent.svelte"] s₁ :=
    hends (by decide +kernel)
  have h₂ : s₁.Answers Sample.parent 1 [] s₂ := hends (by decide +kernel)
  have h₁' : s.Answers Sample.parent 1 ["/app/Parent.svelte"] t₁ := hends (by decide +kernel)
  have h₂' : t₁.Answers Sample.child 1 ["/app/Child.svelte"] t₂ := hends (by decide +kernel)
  have hobeys : s.compiler.Obeys 0 Sample.reversal :=
    obeys_run (attended_start rfl) ⟨rfl, rfl, rfl⟩ (by decide)
  have hspelled {component : FilePath} {r : Record}
      (hfile : (s.bench.cache.peek ⟨component, .dom⟩).map Record.file = some component)
      (hr : s.bench.cache.peek ⟨component, .dom⟩ = some r) : r.file = component := by
    rw [hr] at hfile
    exact Option.some.inj hfile
  obtain ⟨-, -, hrecords, hdependents, -⟩ :=
    changes_of_different_files_commute Sample.reversing Sample.oldLoaded 0 Sample.reversal
      Sample.child Sample.parent 1 1 s₁ s₂ t₁ t₂ _ _ _ _ rfl rfl (by decide) hobeys
      (Cache.idle_of_all (by decide +kernel)) (by decide +kernel)
      (fun _ => hspelled (by decide +kernel)) (fun _ => hspelled (by decide +kernel))
      (by decide +kernel) (by decide +kernel) h₁ h₂ h₁' h₂'
  exact ⟨h₁, h₂, h₁', h₂', hrecords, hdependents⟩

end Session

end HotComponents
