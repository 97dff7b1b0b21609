import HotComponents.Proofs.Component.Normalized
import HotComponents.Proofs.Session.Delivery
import HotComponents.Proofs.Session.Rooted

/-!
# Records are in order and in their own slots

Whatever a compiler puts out, each record of a session is that of an output for the slot that it is
in, and the file that was compiled is absolute. So it is in order wherever it is: current, put aside
by a compile that is under way, or announced. A task for a stylesheet ends with that of such a
record.

* `wellFormed_run`: the records of a session are well-formed;
* `fetches_resume`: what one turn makes of a task for a stylesheet;
* `records_are_well_formed`: records and the stylesheets that are served.
-/

namespace HotComponents

open ModuleId

/-- The job is to come up with a stylesheet. -/
def Job.isForStyle : Job → Bool
  | serve r _ => r.route = .style
  | load _ _ => true
  | _ => false

namespace Session

open Workbench

variable {s start : Session} {i : Nat} {stage new : Stage} {q : Request} {events : List Event}
  {P : Slot → Record → Prop} {Q : Code → Prop}

/-! ## Records -/

/-- Records are well-formed and in their own slots. -/
theorem wellFormed_run (hroot : start.options.root.isAbsolute) (hbench : start.bench = {})
    (htasks : start.tasks = []) (he : ∀ e ∈ events, e.isRooted) :
    Filled (fun slot r => r.WellFormed start.options slot) (start.run events).bench := by
  have hproduced := filled_run hbench htasks fun e hmem => Event.putsNothing_of_isRooted (he e hmem)
  have hrooted := rooted_run (rooted_start hroot hbench htasks) he
  refine (hproduced.and hrooted.bench.filled).mono ?_
  rintro slot record ⟨⟨ran, rest, j, input, output, _, _, rfl, rfl⟩, hfile⟩
  exact start.options.wellFormed_toRecord (FilePath.isAbsolute_iff.2 hfile) output

/-! ## Stylesheets -/

/-- How far a task can have come that was started for a stylesheet: one that it has ended with has a
property. -/
inductive Fetches (Q : Code → Prop) : Stage → Prop where
  | fresh {job : Job} (hjob : job.isForStyle) : Fetches Q (.fresh job)
  | waiting {q : Request} {n : Nat} : Fetches Q (.styling q n)
  | ended {result : TaskResult} (hQ : ∀ css, result = .content (some css) → Q css) :
      Fetches Q (.done result)
  | cancelled : Fetches Q .cancelled

/-- A stylesheet is that of a record which is in the slot or is announced to the task. -/
theorem fetches_of_styled (hfilled : Filled P s.bench)
    (hPQ : ∀ {slot : Slot} {r : Record} {css : Code}, P slot r → r.css = some css → Q css)
    (hstyled : s.Styled i q new) : Fetches Q new := by
  cases hstyled with
  | waiting => exact .waiting
  | found hready =>
    refine .ended fun css hcss => hPQ (hfilled.ready hready) ?_
    exact TaskResult.content.inj hcss
  | @told n t f _ hcall ha =>
    refine .ended fun css hcss => hPQ (hfilled.heard _ _ _ _ hcall rfl ha f rfl) ?_
    exact TaskResult.content.inj hcss
  | refused => exact .ended (by rintro _ ⟨⟩)
  | absent => exact .ended (by rintro _ ⟨⟩)

/-- What one turn makes of a task for a stylesheet. -/
theorem fetches_resume (h : Attended s) (hfilled : Filled P s.bench)
    (hPQ : ∀ {slot : Slot} {r : Record} {css : Code}, P slot r → r.css = some css → Q css)
    (hs : s.stage? i = some stage) (hfetches : Fetches Q stage) :
    ∃ new, (s.resume i).stage? i = some new ∧ Fetches Q new := by
  have hthere : (s.stage? i).isSome := Option.isSome_of_eq_some hs
  have hstyled {s' : Session} {q : Request}
      (hturn : ∃ new, s'.stage? i = some new ∧ s.Styled i q new) :
      ∃ new, s'.stage? i = some new ∧ Fetches Q new := by
    obtain ⟨new, hnew, hstyled⟩ := hturn
    exact ⟨new, hnew, fetches_of_styled hfilled hPQ hstyled⟩
  cases hfetches with
  | @fresh job hjob =>
    cases job with
    | serve r code =>
      have hroute : r.route = .style := by simpa [Job.isForStyle] using hjob
      rw [resume_eq hs]
      simp only [resumeFrom, begin, startRequest, hroute]
      exact hstyled (styled_startStyling hthere rfl)
    | load sid target =>
      by_cases hstyle : ∃ q, parse s.options sid target = some q ∧ q.route = .style
      · obtain ⟨q, hparse, hstyle⟩ := hstyle
        exact hstyled (styled_resume h hs (.fresh hparse hstyle))
      · rw [resume_eq hs]
        change ∃ new, (s.startLoad i sid target).stage? i = some new ∧ _
        rw [startLoad_of_other fun r hparse hroute => hstyle ⟨r, hparse, hroute⟩]
        exact ⟨_, stage?_setStage_self hthere _, .ended (by rintro _ ⟨⟩)⟩
    | _ => cases hjob
  | @waiting q n =>
    -- What the stylesheet's identifier was does not matter any more.
    have hasks : AsksStyle s.options "" .dom q (.styling q n) := .waiting
    exact hstyled (styled_resume h hs hasks)
  | ended hQ =>
    rw [resume_eq hs]
    exact ⟨_, hs, .ended hQ⟩
  | cancelled =>
    rw [resume_eq hs]
    exact ⟨_, hs, .cancelled⟩

/-- What one event makes of a task for a stylesheet. -/
theorem fetches_apply {e : Event} (h : Attended s) (hfilled : Filled P s.bench)
    (hPQ : ∀ {slot : Slot} {r : Record} {css : Code}, P slot r → r.css = some css → Q css)
    (hs : s.stage? i = some stage) (hfetches : Fetches Q stage) :
    ∃ new, (s.apply e).stage? i = some new ∧ Fetches Q new := by
  by_cases hi : e.actor? = some i
  · cases e with
    | resume j =>
      cases hi
      exact fetches_resume h hfilled hPQ hs hfetches
    | cancel j =>
      cases hi
      change ∃ new, (s.cancel i).stage? i = some new ∧ _
      rcases s.stage?_cancel i with hsame | hcancelled
      · rw [hsame]
        exact ⟨stage, hs, hfetches⟩
      · exact ⟨.cancelled, hcancelled, .cancelled⟩
    | _ => cases hi
  · exact ⟨stage, stage?_apply_of_ne hs hi, hfetches⟩

/-- What a run makes of a task for a stylesheet. -/
theorem fetches_run {before later : List Event} {job : Job}
    (hroot : start.options.root.isAbsolute) (hbench : start.bench = {}) (htasks : start.tasks = [])
    (he : ∀ e ∈ before ++ later, e.isRooted)
    (hjob : (start.run before).stage? i = some (.fresh job)) (hstyle : job.isForStyle) :
    ∃ new, (start.run (before ++ later)).stage? i = some new ∧
      Fetches (fun css => start.options.emitCss ∧ css.isBlank = false) new := by
  induction later using List.reverseRecOn with
  | nil => exact ⟨_, by rwa [List.append_nil], .fresh hstyle⟩
  | append_singleton later e ih =>
    rw [← List.append_assoc, List.forall_mem_append] at he
    obtain ⟨stage, hs, hfetches⟩ := ih he.1
    have hattended : Attended (start.run (before ++ later)) :=
      attended_run (attended_start htasks) fun e hmem => Event.putsNothing_of_isRooted (he.1 e hmem)
    rw [← List.append_assoc, run_append]
    exact fetches_apply hattended (wellFormed_run hroot hbench htasks he.1)
      (fun hformed hcss => hformed.css _ hcss) hs hfetches

/-- Every record is in order and in its own slot. In every run of events from a new session with
options that were accepted, in which nothing is put into the cache directly and no task is started
with a request for a file that is not absolute, whatever the compiler puts out: a record that is
current for a key, or was before a compile that is under way for it, is for the key's file by its
components and for the key's target; its dependencies are absolute and strictly ascending, and none
is the file itself; and it has a stylesheet only if stylesheets are served by themselves and there
is something in it. So a task for a stylesheet never ends with a blank one, and with none at all if
stylesheets are not served by themselves. -/
theorem records_are_well_formed (settings : Settings) (workingDirectory : FilePath)
    (start : Session) (events : List Event) :
    settings.resolve workingDirectory = .ok start.options → start.bench = {} → start.tasks = [] →
    (∀ e ∈ events, e.isRooted) →
    (∀ k f, (start.run events).bench.cache.current? k = some f →
      f.record.WellFormed start.options k.slot) ∧
    ∀ (before later : List Event) (i : Nat) (job : Job) (css : Code), events = before ++ later →
      (start.run before).stage? i = some (.fresh job) → job.isForStyle →
      (start.run events).stage? i = some (.done (.content (some css))) →
      start.options.emitCss ∧ css.isBlank = false := by
  intro haccepted hbench htasks he
  have hroot := Settings.isAbsolute_root_of_resolve haccepted
  refine ⟨fun k f hf => (wellFormed_run hroot hbench htasks he).current hf, ?_⟩
  rintro before later i job css rfl hjob hstyle hend
  obtain ⟨new, hnew, hfetches⟩ := fetches_run hroot hbench htasks he hjob hstyle
  cases hnew.symm.trans hend
  cases hfetches with
  | ended hQ => exact hQ css rfl

end Session

namespace Sample

/-- A new session whose compiler lists dependencies untidily. -/
def untidy : Session where
  options := { root := ⟨"/app"⟩ }
  disk := Disk.write {} ⟨"/app/A.svelte"⟩ "two".toUTF8.toList
  compiler := {
    kind := .rule 0 fun input =>
      .ok {
        js := ⟨input.code, none⟩
        css := some ⟨"p \x7b color: red \x7d", none⟩
        dependencies := [⟨"b.css"⟩, ⟨"./A.svelte"⟩, ⟨"a.css"⟩, ⟨"./b.css"⟩] } }

/-- The component is served and its stylesheet loaded; then it changes and is being read again. -/
def reread : List Session.Event :=
  [.start "main" (.transform "A.svelte" "one" .dom), .resume 0,
    .start "style" (.load "A.svelte?svelte&type=style&lang.css" .dom), .resume 1,
    .start "change" (.change ⟨"/app/A.svelte"⟩ 1), .resume 2]

end Sample

namespace Session

open Workbench

/-- The component is pending, and the record of the text that it had before is in order. -/
theorem records_are_well_formed_untidy :
    let last := Sample.untidy.run Sample.reread
    let k : Key := ⟨⟨"/app/A.svelte"⟩, .dom⟩
    let css : Code := ⟨"p \x7b color: red \x7d", none⟩
    last.bench.cache.isPending k 1 ∧
    (∃ f, last.bench.cache.current? k = some f ∧
      f.record.js = ⟨"one", none⟩ ∧
      f.record.WellFormed Sample.untidy.options k.slot) ∧
    last.stage? 1 = some (.done (.content (some css))) ∧
    Sample.untidy.options.emitCss ∧ css.isBlank = false := by
  intro last k css
  have haccepted : ({ root := ⟨"/app"⟩ } : Settings).resolve ⟨"/"⟩ = .ok Sample.untidy.options := rfl
  have hpending : last.bench.cache.isPending k 1 := by decide +kernel
  have hjs : (last.bench.cache.current? k).map (·.record.js) = some ⟨"one", none⟩ := by
    decide +kernel
  have hload : (Sample.untidy.run (Sample.reread.take 3)).stage? 1 =
      some (.fresh (.load "A.svelte?svelte&type=style&lang.css" .dom)) := by decide +kernel
  have hstyle : last.stage? 1 = some (.done (.content (some css))) := by decide +kernel
  obtain ⟨f, hf, hcode⟩ := Option.map_eq_some_iff.1 hjs
  obtain ⟨hrecords, hstyles⟩ := records_are_well_formed { root := ⟨"/app"⟩ } ⟨"/"⟩ Sample.untidy
    Sample.reread haccepted rfl rfl (by decide)
  exact ⟨hpending, ⟨f, hf, hcode, hrecords k f hf⟩, hstyle,
    hstyles (Sample.reread.take 3) (Sample.reread.drop 3) 1 _ css rfl hload rfl hstyle⟩

end Session

end HotComponents
