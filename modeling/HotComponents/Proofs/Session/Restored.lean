import HotComponents.Proofs.Session.Failure
import HotComponents.Proofs.Session.Report
import HotComponents.Proofs.Session.Stylesheet

/-!
# Stylesheets while components are made anew

Whoever makes a record anew keeps the error to itself if that fails, and puts the old record back.
So while a session does nothing but answer to changes and load stylesheets, no task for a stylesheet
is told an error; each is given the stylesheet of a record that is or was current, and such a record
was there from the start or has come from a compile of the component that an answer has made to
succeed.

* `tending_apply`: what holds of such a session, event by event;
* `recompiles_of_stored`: a record is stored in a turn of an answer that ends a compile;
* `stylesheet_kept_while_updates_fail`: what a task for a stylesheet ends in.
-/

namespace HotComponents

open ModuleId

/-- The task answers to a change or loads a stylesheet, or has ended. -/
def Stage.answersOrLoads : Stage → Bool
  | fresh (.load _ _) => true
  | styling _ _ => true
  | stage => stage.answersOrEnded

theorem Stage.answersOrLoads_of_answersOrEnded {stage : Stage} (h : stage.answersOrEnded) :
    stage.answersOrLoads := by
  unfold answersOrLoads
  split
  · rfl
  · rfl
  · exact h

namespace Session

open Workbench

variable {s start : Session} {i j n : Nat} {k : Key} {old stage : Stage} {f : Filed}
  {events : List Event} {e : Event} {q : Request} {sid : String}

/-! ## Sessions at rest -/

/-- No task is under way, and no call. -/
structure AtRest (s : Session) : Prop where
  tasks : ∀ (i : Nat) (stage : Stage), s.stage? i = some stage → stage.hasEnded
  calls : ∀ (n : Nat) (call : Call), s.bench.calls[n]? = some call → call.hasEnded

/-- A session is at rest by a look at all its tasks and calls. -/
theorem atRest_of_all (htasks : s.tasks.all fun t => t.stage.hasEnded)
    (hcalls : s.bench.calls.all Call.hasEnded) : s.AtRest where
  tasks := stages_of_all htasks
  calls _ call hcall := List.all_eq_true.1 hcalls call (List.mem_of_getElem? hcall)

/-- A task that has ended has no call, so each has come as far as it says. -/
theorem AtRest.attended (h : s.AtRest) : Attended s := by
  constructor
  · intro i stage hs
    have hended := h.tasks i stage hs
    cases stage <;> trivial
  · intro i j n stage stage' hs _ hn
    rw [stageCall?_of_hasEnded (h.tasks i stage hs)] at hn
    cases hn

/-- Nobody waits, so nobody was told anything. -/
theorem AtRest.still (h : s.AtRest) : Hears (fun _ _ _ => False) s.bench := by
  intro n t call a hcall hphase
  have hended := h.calls n call hcall
  rw [Call.hasEnded, hphase] at hended
  cases hended

/-- No ticket is out, so none of any slot is lost. -/
theorem AtRest.ordered (h : s.AtRest) (k : Key) : Ordered (fun _ => False) k s.bench := by
  -- All calls have ended, so none computes and none waits.
  have hopen {n : Nat} {call : Call} (hcall : s.bench.calls[n]? = some call)
      (hphase : (∃ t d, call.phase = .computing t d) ∨ ∃ t, call.phase = .waiting t) : False := by
    have hended := h.calls n call hcall
    rcases hphase with ⟨t, d, hphase⟩ | ⟨t, hphase⟩
    · rw [Call.hasEnded, hphase] at hended
      cases hended
    · rw [Call.hasEnded, hphase] at hended
      cases hended
  constructor
  · exact fun hcall _ hphase => (hopen hcall (.inl ⟨_, _, hphase⟩)).elim
  · exact fun hcall _ hphase => (hopen hcall (.inr ⟨_, hphase⟩)).elim
  · exact fun hcall _ hphase => (hopen hcall (.inr ⟨_, hphase⟩)).elim
  · exact fun hcall _ hphase => (hopen hcall (.inr ⟨_, hphase⟩)).elim

/-! ## Answering and loading -/

/-- The event is one of those that a session can meet while it does nothing but answer to changes
and load stylesheets, of which any may be given up. -/
def Event.tends : Event → Bool
  | .start _ (.change _ _) => true
  | .start _ (.load _ _) => true
  | .start _ _ => false
  | e => e.isInside

theorem Event.isInside_of_tends (h : e.tends) : e.isInside := by
  cases e <;> first | rfl | exact h

/-- The session does nothing but answer to changes and load stylesheets, and nobody who waits was
told an error. -/
structure Tending (s : Session) : Prop where
  attended : Attended s
  sound : Sound s.bench
  stages : ∀ {i : Nat} {stage : Stage}, s.stage? i = some stage → stage.answersOrLoads
  spared : Hears (fun _ _ a => ∀ error, a ≠ .failure error) s.bench

theorem AtRest.tending (h : s.AtRest) (hw : Sound s.bench) : Tending s where
  attended := h.attended
  sound := hw
  stages hs := Stage.answersOrLoads_of_answersOrEnded
    (Stage.answersOrEnded_of_hasEnded (h.tasks _ _ hs))
  spared n t call a hcall hphase ha := (h.still n t call a hcall hphase ha).elim

/-- What one turn makes of the stage of such a task. -/
theorem stage?_resume_of_tending (h : Tending s) (hs : s.stage? i = some old) :
    ∃ new, (s.resume i).stage? i = some new ∧ new.answersOrLoads := by
  have hanswers {s' : Session} (hkeeps : s'.Keeps i []) :
      ∃ new, s'.stage? i = some new ∧ new.answersOrLoads := by
    obtain ⟨new, hnew, hanswers, _⟩ := hkeeps
    exact ⟨new, hnew, Stage.answersOrLoads_of_answersOrEnded hanswers⟩
  have hstyled (sid : String) (target : Target) {q : Request}
      (hasks : AsksStyle s.options sid target q old) :
      ∃ new, (s.resume i).stage? i = some new ∧ new.answersOrLoads := by
    obtain ⟨new, hnew, hstyled⟩ := styled_resume h.attended hs hasks
    refine ⟨new, hnew, ?_⟩
    cases hstyled <;> rfl
  have hstays (hsame : s.resume i = s) :
      ∃ new, (s.resume i).stage? i = some new ∧ new.answersOrLoads := by
    rw [hsame]
    exact ⟨old, hs, h.stages hs⟩
  cases old with
  | fresh job =>
    cases job with
    | change file timestamp =>
      rw [resume_eq hs]
      exact hanswers ((informs_startChange h.sound hs).keeps (.inr nofun))
    -- A load of something else than a stylesheet ends at once.
    | load sid target =>
      by_cases hstyle : ∃ q, parse s.options sid target = some q ∧ q.route = .style
      · obtain ⟨q, hparse, hstyle⟩ := hstyle
        exact hstyled sid target (.fresh hparse hstyle)
      · rw [resume_eq hs]
        change ∃ new, (s.startLoad i sid target).stage? i = some new ∧ _
        rw [startLoad_of_other fun r hparse hroute => hstyle ⟨r, hparse, hroute⟩]
        exact ⟨_, stage?_setStage_self (Option.isSome_of_eq_some hs) _, rfl⟩
    | _ => cases h.stages hs
  | updating u component call making =>
    exact hanswers ((informs_updating h.sound (h.attended.fits hs) hs).keeps (.inr nofun))
  | styling q call => exact hstyled "" .dom .waiting
  | done result => exact hstays (resume_eq hs)
  | cancelled => exact hstays (resume_eq hs)
  | _ => cases h.stages hs

/-- What one event preserves. An error is announced only by a task that serves a main module, and
there is none. -/
theorem tending_apply (h : Tending s) (he : e.tends) : Tending (s.apply e) where
  attended := attended_apply h.attended
    (Event.putsNothing_of_isInside (Event.isInside_of_tends he))
  sound := by
    obtain ⟨moves, hmoves⟩ := bench_apply s e
    exact hmoves ▸ sound_run h.sound moves
  stages := by
    intro i stage hstage
    rcases stage?_of_apply h.attended hstage with hthere | ⟨name, job, rfl, rfl⟩
    · obtain ⟨old, hs⟩ := Option.isSome_iff_exists.1 hthere
      -- A task changes its stage by its own turn, or by being given up.
      by_cases hi : e.actor? = some i
      · cases e with
        | resume j =>
          cases hi
          obtain ⟨new, hnew, hloads⟩ := stage?_resume_of_tending h hs
          cases hstage.symm.trans hnew
          exact hloads
        | cancel j =>
          cases hi
          change (s.cancel i).stage? i = some stage at hstage
          rcases s.stage?_cancel i with hsame | hcancelled
          · rw [hsame] at hstage
            exact h.stages hstage
          · cases hcancelled.symm.trans hstage
            rfl
        | _ => cases hi
      · cases (stage?_apply_of_ne hs hi).symm.trans hstage
        exact h.stages hs
    · cases job <;> first | rfl | cases he
  spared := by
    refine (holds_inside
      (J := fun w => Sound w ∧ Hears (fun _ _ a => ∀ error, a ≠ .failure error) w)
      h.attended (Event.isInside_of_tends he) ⟨h.sound, h.spared⟩ ?_ ?_).2
    · -- A leader that quits announces no error.
      rintro w n ⟨hw, hspared⟩
      have hstep := step_apply w (.cancel n)
      refine ⟨sound_step hw hstep, hears_step hw hstep hspared ?_⟩
      intro l j t call leader d a _ _ _ _ hreleases error ha
      cases hreleases
      cases ha
    · -- Errors are announced by those that serve main modules, and there is no such task.
      rintro j w m rfl hdeeds hm ⟨hw, hspared⟩
      have hstep := step_apply w m
      refine ⟨sound_step hw hstep, hears_step hw hstep hspared ?_⟩
      rintro l j' t call leader d a hcall hwaits hleader hleads hreleases error rfl
      obtain ⟨_, _, r, code, c, _, hserves, _⟩ :=
        serving_of_release h.attended h.sound hdeeds hm hcall hwaits hleader hleads hreleases
      cases h.stages hserves

theorem tending_run (h : Tending s) (he : ∀ e ∈ events, e.tends) : Tending (s.run events) := by
  induction events generalizing s with
  | nil => exact h
  | cons e events ih =>
    rw [List.forall_mem_cons] at he
    exact ih (tending_apply h he.1) he.2

/-! ## Records that are stored -/

/-- In its next turn the task, which makes the record of a component anew, ends a compile for a slot
and the record of its output becomes the current one. -/
structure Recompiles (s : Session) (i : Nat) (k : Key) (f : Filed) : Prop where
  updating : ∃ u component n making, s.stage? i = some (.updating u component n (some making)) ∧
    Key.slot ⟨component, .dom⟩ = k.slot
  compiled : ∃ input output, s.EndsCompile i input (.ok output) ∧
    (input.file.components, input.target) = k.slot ∧ f.record = s.options.toRecord input output
  stored : s.StoredIn (.resume i) k f

/-- A record that is stored in a browser's slot is that of a compile which a task ends. -/
theorem compiled_of_stored (h : Attended s) (hw : Sound s.bench) (he : e.isInside)
    (hk : k.target = .dom) (hstored : s.StoredIn e k f) :
    ∃ i input output, e = .resume i ∧ s.EndsCompile i input (.ok output) ∧
      (input.file.components, input.target) = k.slot ∧
      f.record = s.options.toRecord input output := by
  let J (w : Workbench) : Prop := Sound w ∧
    (w.cache.current? k = s.bench.cache.current? k ∨
      ∃ i input output t, e = .resume i ∧ s.EndsCompile i input (.ok output) ∧
        (input.file.components, input.target) = k.slot ∧
        w.cache.current? k = some ⟨s.options.toRecord input output, t⟩)
  have hbench : J (s.apply e).bench := by
    refine holds_inside h he ⟨hw, .inl rfl⟩ ?_ ?_
    · rintro w n ⟨hw, hcurrent⟩
      refine ⟨sound_step hw (step_apply w _), ?_⟩
      have hsame : (w.apply (.cancel n)).cache.current? k = w.cache.current? k :=
        current?_apply hw _ k
      rwa [hsame]
    · rintro j w m rfl _ hm ⟨hw, hcurrent⟩
      refine ⟨sound_step hw (step_apply w m), ?_⟩
      rcases current?_apply_of_untouched hw (hm.sparesDom k hk) with
        hsame | ⟨l, t, leader, d, r, hmove, hleader, hslot, _, _, hnew⟩
      · rwa [hsame]
      · -- Of the deeds of a task, only the end of a compile brings a record.
        right
        subst hmove
        generalize hmove : Move.finish l (.ok r) = m at hm
        cases hm with
        | @compiled n t' intent d' input result hown halone hends hcall =>
          obtain ⟨rfl, houtcome⟩ := Move.finish.inj hmove
          cases hcall.symm.trans hleader
          cases result with
          | ok output =>
            cases houtcome
            exact ⟨j, input, output, some t, rfl, hends, hslot, hnew⟩
          | error failure => cases houtcome
        | unread => cases (Move.finish.inj hmove).2
        | _ => cases hmove
  rcases hbench.2 with hsame | ⟨i, input, output, t, hturn, hends, hslot, hcurrent⟩
  · rw [hstored.2] at hsame
    exact absurd hsame.symm hstored.1
  · cases hcurrent.symm.trans hstored.2
    exact ⟨i, input, output, hturn, hends, hslot, rfl⟩

/-- An answer that changes the current record of a browser's slot in its turn has been making it
anew. -/
theorem updating_of_stored {u : Update} {component : FilePath} {making : Option Making}
    (h : Attended s) (hw : Sound s.bench) (hk : k.target = .dom)
    (hs : s.stage? i = some (.updating u component n making))
    (hstored : s.StoredIn (.resume i) k f) :
    Key.slot ⟨component, .dom⟩ = k.slot ∧ making.isSome := by
  obtain ⟨p, hcall⟩ : ∃ p, s.bench.calls[n]? = some ⟨⟨component, .dom⟩, .recompute, p⟩ := by
    cases making with
    | none => exact (h.fits hs).elim fun _ hcall => ⟨_, hcall⟩
    | some _ => exact (h.fits hs).1.elim fun _ hcall => hcall.elim fun _ hcall => ⟨_, hcall⟩
  have hbefore := hstored.1
  have hafter : (s.resume i).bench.cache.current? k = some f := hstored.2
  rw [← hafter] at hbefore
  have hanswered := answered_resume hs
  generalize s.resume i = after at hanswered hbefore
  cases hanswered with
  | waits hstage hbench => exact absurd (current?_unrenewed hw hcall rfl hbench k).symm hbefore
  | fails hstage hbench => exact absurd (current?_unrenewed hw hcall rfl hbench k).symm hbefore
  | @lands y outcome previous r hbench hsome hanswer =>
    have hw' : Sound y.bench := hbench ▸ sound_step hw (step_apply _ _)
    rw [current?_reconcile hw' hk, hbench] at hbefore
    rw [hbench] at hanswer
    rcases current?_landed hw hcall hanswer k with hsame | ⟨hkey, _⟩
    · exact absurd hsame.symm hbefore
    · refine ⟨Key.same_iff.1 hkey, ?_⟩
      cases making with
      | some _ => rfl
      | none =>
        -- A call that waits has no compute that could end.
        obtain ⟨t, hwaits⟩ := h.fits hs
        simp [answer?, Workbench.apply, hwaits, Call.finish, calls_update hwaits, Call.answer?]
          at hanswer

/-- The turn of a task for a stylesheet leaves every current record as it is. -/
theorem current?_advanceStyling {y : Session} :
    (y.advanceStyling i q n).bench.cache.current? k = y.bench.cache.current? k := by
  unfold advanceStyling
  split <;> rfl

theorem current?_startLoad {target : Target} (hw : Sound s.bench) :
    (s.startLoad i sid target).bench.cache.current? k = s.bench.cache.current? k := by
  by_cases hstyle : ∃ q, parse s.options sid target = some q ∧ q.route = .style
  · obtain ⟨q, hparse, hstyle⟩ := hstyle
    have hparse' : parse (s.say (readingNotes s.options sid target)).options sid target =
        some q := hparse
    simp only [startLoad, hparse', hstyle, if_true]
    exact current?_advanceStyling.trans
      (current?_call (y := s.say (readingNotes s.options sid target)) hw q.key .settle k)
  · rw [startLoad_of_other fun r hparse hroute => hstyle ⟨r, hparse, hroute⟩]
    rfl

/-- While a session does nothing but answer to changes and load stylesheets, a record is stored in a
browser's slot only in the turn of an answer that ends a compile for it. -/
theorem recompiles_of_stored (h : Tending s) (he : e.tends) (hk : k.target = .dom)
    (hstored : s.StoredIn e k f) : ∃ i, e = .resume i ∧ s.Recompiles i k f := by
  obtain ⟨i, input, output, rfl, hends, hslot, hrecord⟩ :=
    compiled_of_stored h.attended h.sound (Event.isInside_of_tends he) hk hstored
  refine ⟨i, rfl, ?_, ⟨input, output, hends, hslot, hrecord⟩, hstored⟩
  have hnew : (s.resume i).bench.cache.current? k ≠ s.bench.cache.current? k := by
    intro hsame
    exact hstored.1 (hsame.symm.trans hstored.2)
  obtain ⟨stage, hs⟩ : ∃ stage, s.stage? i = some stage := by
    cases hends with
    | awaited hstage => exact ⟨_, hstage⟩
    | atOnce hstage => exact ⟨_, hstage⟩
  -- A record for a browser that is not current before can come from an answer only.
  cases stage with
  | fresh job =>
    rw [resume_eq hs] at hnew
    cases job with
    | change file timestamp =>
      exact absurd (current?_startChange h.sound hk) hnew
    | load sid target => exact absurd (current?_startLoad h.sound) hnew
    | _ => cases h.stages hs
  | styling q n =>
    rw [resume_eq hs] at hnew
    exact absurd (current?_advanceStyling.trans (current?_apply h.sound (.resume n) k)) hnew
  | updating u component n making =>
    obtain ⟨hcomponent, hmaking⟩ := updating_of_stored h.attended h.sound hk hs hstored
    obtain ⟨m, rfl⟩ := Option.isSome_iff_exists.1 hmaking
    exact ⟨u, component, n, m, hs, hcomponent⟩
  | done result => exact absurd (by rw [resume_eq hs]; rfl) hnew
  | cancelled => exact absurd (by rw [resume_eq hs]; rfl) hnew
  | _ => cases h.stages hs

/-! ## What a task for a stylesheet is given -/

/-- While a session does nothing but answer to changes and load stylesheets, a task for the
stylesheet of a component with a current record is given that of a record that was current in the
meantime, and no error. -/
theorem loads_of_tending {turns rest : List Event} (h : s.AtRest) (hw : Sound s.bench)
    (he : ∀ e ∈ turns ++ rest, e.tends) (hcurrent : (s.bench.cache.current? q.key).isSome)
    (hs : (s.run turns).stage? j = some (.fresh (.load sid .dom)))
    (hparse : parse s.options sid .dom = some q) (hstyle : q.route = .style) :
    ∃ new, (s.run (turns ++ rest)).stage? j = some new ∧
      Loads s.options sid .dom q 0
        (fun result => ∃ f : Filed, result = .content f.record.css ∧
          WasCurrent s (turns ++ rest) q.key f) new := by
  have hinside : ∀ e ∈ turns ++ rest, e.isInside := fun e hmem =>
    Event.isInside_of_tends (he e hmem)
  have hdom : q.key.target = .dom := target_of_parse hparse
  have hbegin := List.forall_mem_append.1 he
  have hattended := (tending_run (h.tending hw) hbegin.1).attended
  have hoptions : (s.run turns).options = s.options := options_run h.attended fun e hmem =>
    Event.putsNothing_of_isInside (Event.isInside_of_tends (hbegin.1 e hmem))
  rw [← hoptions] at hparse ⊢
  rw [run_append]
  refine loads_run hattended (List.forall_mem_append.1 hinside).2 hs (.fresh hparse hstyle)
    (Nat.zero_le _) ?_
  intro ran more result hsplit _ hstyled
  subst hsplit
  -- In the turn in which the task ends, the session is still one of this kind.
  have hran : ∀ e ∈ turns ++ ran, e.tends := by
    rw [← List.append_assoc, List.forall_mem_append] at he
    exact he.1
  have hinran : ∀ e ∈ turns ++ ran, e.isInside := fun e hmem =>
    Event.isInside_of_tends (hran e hmem)
  have hthen := tending_run (h.tending hw) hran
  have hlater {f : Filed} (hwas : WasCurrent s (turns ++ ran) q.key f) :
      WasCurrent s (turns ++ (ran ++ .resume j :: more)) q.key f := by
    simpa using hwas.append (.resume j :: more)
  rw [← run_append] at hstyled
  generalize hdone : Stage.done result = new at hstyled
  cases hstyled with
  | waiting => cases hdone
  | found hready =>
    cases hdone
    refine ⟨_, rfl, hlater ⟨turns ++ ran, [], by simp, ?_⟩⟩
    rw [Cache.current?, hready]
    rfl
  | told hold hcall ha =>
    cases hdone
    exact ⟨_, rfl, hlater (told_was_current_since h.attended hw (fun _ => h.ordered _) h.still
      hinran _ _ _ _ hcall rfl ha hdom _ rfl)⟩
  | refused hold hcall ha => exact absurd rfl (hthen.spared _ _ _ _ hcall rfl ha _)
  | absent hvacant =>
    have hstill := isSome_current?_events hdom hw hinran hcurrent
    rw [Cache.current?, hvacant] at hstill
    cases hstill

/-- Answers that fail are not noticed by stylesheets. Take a session that is at rest after any run
from an empty cache, with a record stored for the browser's slot of a component, and let it do
nothing from there but answer to changes of any files and load stylesheets, with the files changing
in any way, any reads and compiles failing and any tasks given up. A task for the stylesheet of the
component is never refused. If it ends it is given the stylesheet of that record, or of one that was
stored in the run by an answer which compiled the component anew; and it ends in the next turn that
it takes while the slot is not pending. -/
theorem stylesheet_kept_while_updates_fail (start : Session) (before turns rest : List Event)
    (j : Nat) (sid : String) (q : Request) (f : Filed) :
    let s := start.run before
    let last := s.run (turns ++ rest)
    start.bench = {} → s.AtRest → (∀ e ∈ turns ++ rest, e.tends) →
    (s.run turns).stage? j = some (.fresh (.load sid .dom)) →
    parse s.options sid .dom = some q → q.route = .style →
    s.bench.cache.content? q.key = some (.ready f) →
    (∀ error, last.stage? j ≠ some (.done (.refused error))) ∧
    (∀ result, last.stage? j = some (.done result) →
      ∃ g : Filed, result = .content g.record.css ∧
        (g = f ∨ ∃ ran i more, turns ++ rest = ran ++ .resume i :: more ∧
          (s.run ran).Recompiles i q.key g)) ∧
    ((∀ t d, last.bench.cache.content? q.key ≠ some (.pending t d)) →
      last.stage? j = some .cancelled ∨
        ∃ result, (last.resume j).stage? j = some (.done result)) := by
  intro s last hbench hrest he hload hparse hstyle hready
  have hw : Sound s.bench := sound_events hbench before
  have hdom : q.key.target = .dom := target_of_parse hparse
  have hcurrent : s.bench.cache.current? q.key = some f := by
    rw [Cache.current?, hready]
    rfl
  have hinside : ∀ e ∈ turns ++ rest, e.isInside := fun e hmem =>
    Event.isInside_of_tends (he e hmem)
  obtain ⟨new, hnew, hloads⟩ :=
    loads_of_tending hrest hw he (Option.isSome_of_eq_some hcurrent) hload hparse hstyle
  -- Whatever the load ends with is a record that was current at some point of the run.
  have hgiven (result : TaskResult) (hdone : last.stage? j = some (.done result)) :
      ∃ g : Filed, result = .content g.record.css ∧ WasCurrent s (turns ++ rest) q.key g := by
    cases hnew.symm.trans hdone
    cases hloads with
    | ended hP => exact hP
  refine ⟨?_, ?_, ?_⟩
  · intro error hrefused
    obtain ⟨g, hresult, _⟩ := hgiven _ hrefused
    cases hresult
  · intro result hdone
    obtain ⟨g, hresult, hwas⟩ := hgiven result hdone
    refine ⟨g, hresult, ?_⟩
    -- That is the first record, or one that was stored on the way, by an answer.
    rcases current_or_stored hwas with hfirst | ⟨ran, e, more, hsplit, hstored⟩
    · exact .inl (Option.some.inj (hfirst.symm.trans hcurrent))
    · rw [hsplit, List.forall_mem_append, List.forall_mem_cons] at he
      obtain ⟨i, rfl, hrecompiles⟩ :=
        recompiles_of_stored (tending_run (hrest.tending hw) he.1) he.2.1 hdom hstored
      exact .inr ⟨ran, i, more, hsplit, hrecompiles⟩
  · intro hfree
    have hlast := tending_run (hrest.tending hw) he
    have hordered : Ordered (fun _ => False) q.key last.bench :=
      ordered_events hdom hw hinside (hrest.ordered q.key)
    have hoptions : last.options = s.options := options_run hrest.attended fun e hmem =>
      Event.putsNothing_of_isInside (hinside e hmem)
    rw [← hoptions] at hloads
    exact ends_of_loads hlast.attended hordered hnew hloads hfree

end Session

namespace Sample

/-- A component with a stylesheet. -/
def panel : FilePath := ⟨"/app/Panel.svelte"⟩

/-- A session that compiles the component once, but not once more. -/
def faltering : Session where
  options := { root := ⟨"/app"⟩ }
  disk := Disk.write {} panel "two".toUTF8.toList
  compiler := {
    kind := .driven
    queue := [.ok { js := ⟨"one", none⟩, css := some ⟨"p \x7b color: red \x7d", none⟩ },
      .error { message := "unexpected end" }] }

/-- The component is served. -/
def opening : List Session.Event :=
  [.start "main" (.transform "/app/Panel.svelte" "one" .dom), .resume 0]

/-- It is made anew, and its stylesheet is loaded meanwhile. -/
def remaking : List Session.Event :=
  [.start "first" (.change panel 1), .resume 1,
    .start "style" (.load "/app/Panel.svelte?svelte&type=style&lang.css" .dom)]

/-- The compile fails, and the answer to the next change is given up. -/
def inVain : List Session.Event :=
  [.resume 2, .resume 1, .start "second" (.change panel 2), .resume 3, .resume 2, .cancel 3,
    .resume 2]

end Sample

namespace Session

/-- A task for a stylesheet waits for an answer whose compile fails, looks again and waits for one
that is given up, and is given the stylesheet that was there all the time. -/
theorem stylesheet_kept_while_updates_fail_twice :
    let s := Sample.faltering.run Sample.opening
    let last := s.run (Sample.remaking ++ Sample.inVain)
    let q : Request := ⟨Sample.panel, "/Panel.svelte",
      ⟨[.marker, .artifact .style, .langCss]⟩, .dom, none⟩
    let css : Code := ⟨"p \x7b color: red \x7d", none⟩
    last.stage? 1 =
      some (.done (.failed (.compile ⟨Sample.panel, { message := "unexpected end" }⟩))) ∧
    last.stage? 3 = some .cancelled ∧
    last.stage? 2 = some (.done (.content (some css))) ∧
    ∃ f g : Filed, s.bench.cache.content? q.key = some (.ready f) ∧ g.record.css = some css ∧
      (g = f ∨ ∃ ran i more, Sample.remaking ++ Sample.inVain = ran ++ .resume i :: more ∧
        (s.run ran).Recompiles i q.key g) := by
  intro s last q css
  have hfailed : last.stage? 1 = some (.done (.failed
      (.compile ⟨Sample.panel, { message := "unexpected end" }⟩))) := by decide +kernel
  have hcancelled : last.stage? 3 = some .cancelled := by decide +kernel
  have hstyle : last.stage? 2 = some (.done (.content (some css))) := by decide +kernel
  have hrest : s.AtRest := atRest_of_all (by decide +kernel) (by decide +kernel)
  have hload : (s.run Sample.remaking).stage? 2 =
      some (.fresh (.load "/app/Panel.svelte?svelte&type=style&lang.css" .dom)) := by decide +kernel
  have hparse : parse s.options "/app/Panel.svelte?svelte&type=style&lang.css" .dom = some q := by
    decide +kernel
  have hpeek : (s.bench.cache.peek q.key).isSome := by decide +kernel
  obtain ⟨r, hr⟩ := Option.isSome_iff_exists.1 hpeek
  obtain ⟨t, hready⟩ := Cache.ready_of_peek hr
  obtain ⟨_, hgiven, _⟩ :=
    stylesheet_kept_while_updates_fail Sample.faltering Sample.opening Sample.remaking
      Sample.inVain 2 "/app/Panel.svelte?svelte&type=style&lang.css" q ⟨r, t⟩ rfl hrest (by decide)
      hload hparse (by decide) hready
  obtain ⟨g, hresult, horigin⟩ := hgiven _ hstyle
  simp only [TaskResult.content.injEq] at hresult
  exact ⟨hfailed, hcancelled, hstyle, ⟨r, t⟩, g, hready, hresult.symm, horigin⟩

end Session

end HotComponents
