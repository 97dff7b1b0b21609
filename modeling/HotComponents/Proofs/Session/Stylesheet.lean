import HotComponents.Proofs.Session.Kept

/-!
# Stylesheets of components that were served

Once the main module of a component was served to the browser, its slot has a current record. So a
task for the stylesheet of the component that runs after that is never too early, whatever becomes
of the compiles it meets, and while no other compile for the component begins it is given the
stylesheet of the very record that was served.

* `transform_stored`: the record behind a main module that was served to the browser was stored;
* `loads_of_current`, `loads_of_unrivalled`: what a task for a stylesheet ends in where there is a
  current record, and where no compile begins;
* `ends_of_unpending`: such a task does not wait once the slot is not pending;
* `stylesheet_of_served_component`: what a task for a stylesheet ends in.
-/

namespace HotComponents

open ModuleId

namespace Session

open Workbench

variable {s start : Session} {i j first : Nat} {k : Key} {old : Stage} {events : List Event}
  {r q : Request} {id code sid : String} {js : Code} {target : Target} {result : TaskResult}
  {f : Filed}

/-- A task for a stylesheet that is resumed while the slot is not pending ends in that turn. -/
theorem ends_of_unpending (h : Attended s) (hordered : Ordered (fun _ => False) q.key s.bench)
    (hs : s.stage? i = some old) (hasks : AsksStyle s.options sid target q old)
    (hfree : ∀ t d, s.bench.cache.content? q.key ≠ some (.pending t d)) :
    ∃ result, (s.resume i).stage? i = some (.done result) := by
  obtain ⟨new, hnew, hstyled⟩ := styled_resume h hs hasks
  cases hstyled with
  | waiting hown hwaits =>
    exfalso
    rcases hwaits with ⟨t, d, hpending⟩ | ⟨t, _, hcall, hnone⟩
    · exact hfree t d hpending
    · -- A ticket that nothing is known of is one that the slot is pending under.
      rcases hordered.awaited hcall rfl rfl with hp | hknown | hlost
      · obtain ⟨d, hd⟩ := Cache.isPending_iff.1 hp
        exact hfree t d hd
      · rw [hnone] at hknown
        cases hknown
      · exact hlost
  | _ => exact ⟨_, hnew⟩

/-- A record that a transform for the browser is served from was the current one of its slot. -/
theorem wasCurrent_of_delivers (hbench : start.bench = {}) (htasks : start.tasks = [])
    (he : ∀ e ∈ events, e.isInside) (hr : r.target = .dom)
    (hdelivers : (start.run events).Delivers i r f ((start.run events).resume i).bench) :
    WasCurrent start (events ++ [.resume i]) r.key f := by
  cases hdelivers with
  | stored hready =>
    refine ⟨events ++ [.resume i], [], by simp, ?_⟩
    rw [run_append]
    change ((start.run events).resume i).bench.cache.current? r.key = some f
    rw [Cache.current?, hready]
    rfl
  | told hold hcall ha =>
    have htold := told_was_current hbench htasks he _ _ _ _ hcall rfl ha hr f rfl
    exact htold.append _
  | superseded hcall hlost =>
    -- No compile for a browser's slot is superseded.
    rcases (ordered_start hbench hr he).held hcall rfl rfl with hp | hfalse
    · rw [hlost] at hp
      cases hp
    · exact hfalse.elim

/-- The record behind a main module that was served to the browser was stored in the run. -/
theorem transform_stored {before mid : List Event} (hbench : start.bench = {})
    (htasks : start.tasks = []) (he : ∀ e ∈ before ++ mid, e.isInside)
    (hstart : (start.run before).stage? i = some (.fresh (.transform id code .dom)))
    (hend : (start.run (before ++ mid)).stage? i = some (.done (.content (some js))))
    (hparse : parse start.options id .dom = some r) :
    ∃ f, (∃ turns rest, mid = turns ++ .resume i :: rest ∧
        (start.run (before ++ turns)).ServesFrom i r f) ∧
      js = mainCode start.options r f.record ∧
      ∃ ran e more, before ++ mid = ran ++ e :: more ∧ (start.run ran).StoredIn e r.key f := by
  rw [List.forall_mem_append] at he
  obtain ⟨hbefore, hmid⟩ := he
  have hputs : ∀ e ∈ before, e.putsNothing := fun e hmem =>
    Event.putsNothing_of_isInside (hbefore e hmem)
  have hoptions := options_run (attended_start htasks) hputs
  rw [run_append] at hend
  obtain ⟨turns, rest, r', f, hturns, hparse', hjs, hserves, hdelivers⟩ :=
    transform_delivered (attended_run (attended_start htasks) hputs) hstart hmid hend
  rw [hoptions] at hparse' hjs
  cases hparse.symm.trans hparse'
  rw [← run_append] at hserves hdelivers
  have hinside : ∀ e ∈ before ++ turns, e.isInside := by
    refine List.forall_mem_append.2 ⟨hbefore, fun e hmem => hmid e ?_⟩
    rw [hturns]
    exact List.mem_append_left _ hmem
  have hdom : r.target = .dom := target_of_parse hparse
  have hwas : WasCurrent start (before ++ mid) r.key f := by
    have hturn := (wasCurrent_of_delivers hbench htasks hinside hdom hdelivers).append rest
    rw [hturns]
    simpa using hturn
  exact ⟨f, ⟨turns, rest, hturns, hserves⟩, hjs, stored_of_wasCurrent hbench hwas⟩

/-- What holds behind the event in which a record was stored: the slot keeps a current record, and
as long as no compile for it begins, it keeps that one. -/
theorem kept_of_stored {ran more : List Event} {e : Event} (hbench : start.bench = {})
    (htasks : start.tasks = []) (he : ∀ e' ∈ ran ++ e :: more, e'.isInside)
    (hk : k.target = .dom) (hstored : (start.run ran).StoredIn e k f) :
    let kept := start.run (ran ++ [e])
    let later := start.run (ran ++ e :: more)
    (later.bench.cache.current? k).isSome ∧ kept.bench.calls.length ≤ later.bench.calls.length ∧
      kept.compiler.begunFor k.slot ≤ later.compiler.begunFor k.slot ∧
      (later.compiler.begunFor k.slot = kept.compiler.begunFor k.slot →
        Unrivalled kept.bench.calls.length k f later) := by
  intro kept later
  rw [List.forall_mem_append, List.forall_mem_cons] at he
  obtain ⟨hran, he, hmore⟩ := he
  have hputs {events : List Event} (he : ∀ e ∈ events, e.isInside) :
      ∀ e ∈ events, e.putsNothing := fun e hmem => Event.putsNothing_of_isInside (he e hmem)
  have hran' : ∀ e' ∈ ran ++ [e], e'.isInside :=
    List.forall_mem_append.2 ⟨hran, by simpa using he⟩
  have hkept : kept = (start.run ran).apply e := run_append _ _ _
  have hlater : later = kept.run more := by
    change start.run (ran ++ e :: more) = (start.run (ran ++ [e])).run more
    rw [← run_append]
    simp
  have hattended : Attended kept := attended_run (attended_start htasks) (hputs hran')
  have hw : Sound kept.bench := sound_events hbench _
  have hcurrent : kept.bench.cache.current? k = some f := by
    rw [hkept]
    exact hstored.2
  have hstart : Unrivalled kept.bench.calls.length k f kept := by
    rw [hkept]
    exact unrivalled_of_stored (attended_run (attended_start htasks) (hputs hran))
      (sound_events hbench _) he hk (ordered_start hbench hk hran) hstored
  rw [hlater]
  refine ⟨?_, ?_, ?_, ?_⟩
  · exact isSome_current?_events hk hw hmore (Option.isSome_of_eq_some hcurrent)
  · obtain ⟨moves, hmoves⟩ := bench_run kept more
    rw [hmoves]
    exact length_calls_le_run _ moves
  · exact begunFor_le_run hattended (hputs hmore) _
  · exact unrivalled_run hattended hw hmore hk hstart

/-- Where the slot has a current record, a task for the stylesheet does not end as too early. -/
theorem loads_of_current (h : Attended s) (hw : Sound s.bench) (he : ∀ e ∈ events, e.isInside)
    (hcurrent : (s.bench.cache.current? q.key).isSome)
    (hs : s.stage? j = some (.fresh (.load sid .dom))) (hparse : parse s.options sid .dom = some q)
    (hstyle : q.route = .style) :
    ∃ new, (s.run events).stage? j = some new ∧
      Loads s.options sid .dom q 0 (fun result => ∀ file, result ≠ .refused (.styleTooEarly file))
        new := by
  refine loads_run h he hs (.fresh hparse hstyle) (Nat.zero_le _) ?_
  intro turns rest result hsplit _ hstyled file hresult
  subst hresult
  generalize hdone : Stage.done (.refused (.styleTooEarly file)) = new at hstyled
  cases hstyled with
  -- A slot with a current record never gets vacant, so the load cannot come too early.
  | absent hvacant =>
    have hturns : ∀ e ∈ turns, e.isInside := by
      intro e hmem
      refine he e ?_
      rw [hsplit]
      exact List.mem_append_left _ hmem
    have hlater := isSome_current?_events (target_of_parse hparse) hw hturns hcurrent
    rw [Cache.current?, hvacant] at hlater
    cases hlater
  | _ => cases hdone

/-- Where a record is the current one and no compile for the slot begins, a task for the stylesheet
ends with that of the record. -/
theorem loads_of_unrivalled (h : Attended s) (hw : Sound s.bench) (he : ∀ e ∈ events, e.isInside)
    (hk : k.target = .dom) (hslot : q.key.slot = k.slot) (hu : Unrivalled first k f s)
    (hfirst : first ≤ s.bench.calls.length) (hs : s.stage? j = some (.fresh (.load sid .dom)))
    (hparse : parse s.options sid .dom = some q) (hstyle : q.route = .style)
    (hcount : (s.run events).compiler.begunFor k.slot = s.compiler.begunFor k.slot)
    (hend : (s.run events).stage? j = some (.done result)) : result = .content f.record.css := by
  obtain ⟨new, hnew, hloads⟩ := loads_run (P := (· = .content f.record.css)) h he hs
    (.fresh hparse hstyle) hfirst (by
      intro turns rest result hsplit hcalls hstyled
      subst hsplit
      have hputs : ∀ e ∈ turns ++ .resume j :: rest, e.putsNothing := fun e hmem =>
        Event.putsNothing_of_isInside (he e hmem)
      rw [List.forall_mem_append] at he hputs
      -- No compile for the slot has begun by then.
      have hle := begunFor_le_run h hputs.1 k.slot
      have hge := begunFor_le_run (attended_run h hputs.1) hputs.2 k.slot
      rw [run_append] at hcount
      have hthen := unrivalled_run h hw he.1 hk hu (by omega)
      have hcurrent := hthen.current
      rw [Cache.current?, ← Cache.content?_congr hslot] at hcurrent
      generalize hdone : Stage.done result = new at hstyled
      cases hstyled with
      | waiting => cases hdone
      | found hready =>
        cases hdone
        rw [hready] at hcurrent
        cases hcurrent
        rfl
      | told hold hcall ha => cases hthen.hears _ _ _ _ hcall rfl ha (hcalls _ hold) hslot
      | refused hold hcall ha => cases hthen.hears _ _ _ _ hcall rfl ha (hcalls _ hold) hslot
      | absent hvacant =>
        rw [hvacant] at hcurrent
        cases hcurrent)
  cases hnew.symm.trans hend
  cases hloads with
  | ended hP => exact hP

/-- A task for a stylesheet was given up, or it ends in its next turn if the slot is not pending. -/
theorem ends_of_loads {P : TaskResult → Prop} {new : Stage} (h : Attended s)
    (hordered : Ordered (fun _ => False) q.key s.bench) (hs : s.stage? j = some new)
    (hloads : Loads s.options sid .dom q first P new)
    (hfree : ∀ t d, s.bench.cache.content? q.key ≠ some (.pending t d)) :
    s.stage? j = some .cancelled ∨ ∃ result, (s.resume j).stage? j = some (.done result) := by
  have hends (hasks : AsksStyle s.options sid .dom q new) :
      ∃ result, (s.resume j).stage? j = some (.done result) :=
    ends_of_unpending h hordered hs hasks hfree
  cases hloads with
  | fresh hparse hstyle => exact .inr (hends (.fresh hparse hstyle))
  | waiting => exact .inr (hends .waiting)
  | @ended result => exact .inr ⟨result, ended_apply hs rfl (.resume j)⟩
  | cancelled => exact .inl hs

/-- A stylesheet is never too early once its component was served. In every run of events from a new
session that is neither closed nor edited, let a transform for the browser have ended with code, and
let a task to load the stylesheet of the same file for the browser run after that. The task does not
end as too early, however other tasks move, fail or are given up, and it ends in the next turn that
it takes while the slot is not pending. The code is the main module of a record that the transform's
call returned and that was stored in the run; if from then on no compile for the slot begins,
the task ends with the stylesheet of that record. -/
theorem stylesheet_of_served_component (start : Session) (before mid later : List Event)
    (i j : Nat) (id code sid : String) (js : Code) (r q : Request) :
    let served := start.run (before ++ mid)
    let last := start.run (before ++ mid ++ later)
    start.bench = {} → start.tasks = [] → (∀ e ∈ before ++ mid ++ later, e.isInside) →
    (start.run before).stage? i = some (.fresh (.transform id code .dom)) →
    served.stage? i = some (.done (.content (some js))) →
    parse start.options id .dom = some r → parse start.options sid .dom = some q →
    q.route = .style → q.file.components = r.file.components →
    served.stage? j = some (.fresh (.load sid .dom)) →
    (∀ file, last.stage? j ≠ some (.done (.refused (.styleTooEarly file)))) ∧
    ((∀ t d, last.bench.cache.content? q.key ≠ some (.pending t d)) →
      last.stage? j = some .cancelled ∨
        ∃ result, (last.resume j).stage? j = some (.done result)) ∧
    ∃ f, (∃ turns rest, mid = turns ++ .resume i :: rest ∧
        (start.run (before ++ turns)).ServesFrom i r f) ∧
      js = mainCode start.options r f.record ∧
      ∃ ran e more, before ++ mid = ran ++ e :: more ∧ (start.run ran).StoredIn e r.key f ∧
        (last.compiler.begunFor r.key.slot =
            (start.run (ran ++ [e])).compiler.begunFor r.key.slot →
          ∀ result, last.stage? j = some (.done result) → result = .content f.record.css) := by
  intro served last hbench htasks he hstart hend hparse hparseStyle hstyle hfile hload
  have hinside := he
  rw [List.forall_mem_append] at he
  obtain ⟨hserved, hlater⟩ := he
  have hputs : ∀ e ∈ before ++ mid, e.putsNothing := fun e hmem =>
    Event.putsNothing_of_isInside (hserved e hmem)
  have hattended : Attended served := attended_run (attended_start htasks) hputs
  have hw : Sound served.bench := sound_events hbench _
  have hlast : last = served.run later := run_append _ _ _
  have hoptions : served.options = start.options := options_run (attended_start htasks) hputs
  have hdom : r.key.target = .dom := target_of_parse hparse
  have hdomStyle : q.key.target = .dom := target_of_parse hparseStyle
  have hslot : q.key.slot = r.key.slot := Prod.ext hfile (hdomStyle.trans hdom.symm)
  rw [← hoptions] at hparseStyle
  obtain ⟨f, hserves, hjs, ran, e, more, hevents, hstored⟩ :=
    transform_stored hbench htasks hserved hstart hend hparse
  have hsplit : served = start.run (ran ++ e :: more) := congrArg start.run hevents
  obtain ⟨hcurrent, hcalls, hbegun, hunrivalled⟩ :=
    kept_of_stored hbench htasks (hevents ▸ hserved) hdom hstored
  rw [← hsplit] at hcurrent hcalls hbegun hunrivalled
  obtain ⟨new, hnew, hloads⟩ : ∃ new, last.stage? j = some new ∧ Loads served.options sid .dom q 0
      (fun result => ∀ file, result ≠ .refused (.styleTooEarly file)) new := by
    rw [Cache.current?, ← Cache.content?_congr hslot] at hcurrent
    rw [hlast]
    exact loads_of_current hattended hw hlater hcurrent hload hparseStyle hstyle
  refine ⟨?_, ?_, f, hserves, hjs, ran, e, more, hevents, hstored, ?_⟩
  · intro file hrefused
    cases hnew.symm.trans hrefused
    cases hloads with
    | ended hP => exact hP file rfl
  · intro hfree
    have hputs : ∀ e ∈ before ++ mid ++ later, e.putsNothing := fun e hmem =>
      Event.putsNothing_of_isInside (hinside e hmem)
    rw [hoptions, ← options_run (attended_start htasks) hputs] at hloads
    exact ends_of_loads (attended_run (attended_start htasks) hputs)
      (ordered_start hbench hdomStyle hinside) hnew hloads hfree
  · intro hcount result hdone
    have hge : served.compiler.begunFor r.key.slot ≤ last.compiler.begunFor r.key.slot := by
      rw [hlast]
      exact begunFor_le_run hattended
        (fun e hmem => Event.putsNothing_of_isInside (hlater e hmem)) _
    -- No compile for the slot begins up to the code being served, nor behind that.
    have hfew := hunrivalled (by omega)
    rw [hlast] at hcount hdone hge
    exact loads_of_unrivalled hattended hw hlater hdom hslot hfew hcalls hload hparseStyle hstyle
      (by omega) hdone

end Session

namespace Sample

/-- A new session whose compiler writes one stylesheet for every text, and ends at once. -/
def styled : Session where
  options := { root := ⟨"/"⟩ }
  compiler := {
    kind := .rule 0 fun input =>
      .ok { js := ⟨input.code, none⟩, css := some ⟨"p \x7b color: red \x7d", none⟩ } }

/-- The stylesheet of a component that is being read again. -/
def rereading : List Session.Event :=
  [.resume 0, .start "change" (.change ⟨"/A.svelte"⟩ 1), .resume 1,
    .start "style" (.load "/A.svelte?svelte&type=style&lang.css" .dom)]

end Sample

namespace Session

open Workbench

/-- A component is served and then changes. Its source cannot be read again, so the record that
was served is put back: a task for the stylesheet, which waits meanwhile, is given that of the
record. -/
theorem stylesheet_of_served_component_reread :
    let before : List Event := [Sample.typed "one"]
    let served := Sample.styled.run (before ++ Sample.rereading)
    let last := Sample.styled.run (before ++ Sample.rereading ++ [.resume 2, .resume 1, .resume 2])
    let js : Code := ⟨"one\nimport \"/A.svelte?svelte&type=style&lang.css\";\n", none⟩
    served.stage? 0 = some (.done (.content (some js))) ∧
    last.stage? 1 = some (.done (.failed (.unreadable ⟨"/A.svelte"⟩))) ∧
    last.stage? 2 = some (.done (.content (some ⟨"p \x7b color: red \x7d", none⟩))) ∧
    ∃ r f, js = mainCode Sample.styled.options r f.record ∧
      f.record.css = some ⟨"p \x7b color: red \x7d", none⟩ ∧
      ∃ turns rest, Sample.rereading = turns ++ .resume 0 :: rest ∧
        (Sample.styled.run (before ++ turns)).ServesFrom 0 r f := by
  intro before served last js
  let r : Request := ⟨⟨"/A.svelte"⟩, "/A.svelte", .empty, .dom, none⟩
  let q : Request := ⟨⟨"/A.svelte"⟩, "/A.svelte",
    ⟨[.marker, .artifact .style, .langCss]⟩, .dom, none⟩
  have hserved : served.stage? 0 = some (.done (.content (some js))) := by decide +kernel
  have hfailed : last.stage? 1 = some (.done (.failed (.unreadable ⟨"/A.svelte"⟩))) := by
    decide +kernel
  have hstyle : last.stage? 2 =
      some (.done (.content (some ⟨"p \x7b color: red \x7d", none⟩))) := by decide +kernel
  have hparse : parse Sample.styled.options "/A.svelte" .dom = some r := by decide +kernel
  have hparseStyle : parse Sample.styled.options "/A.svelte?svelte&type=style&lang.css" .dom =
      some q := by decide +kernel
  have hstart : (Sample.styled.run before).stage? 0 =
      some (.fresh (.transform "/A.svelte" "one" .dom)) := by decide +kernel
  have hload : served.stage? 2 =
      some (.fresh (.load "/A.svelte?svelte&type=style&lang.css" .dom)) := by decide +kernel
  obtain ⟨_, _, f, hserves, hjs, ran, e, more, hevents, hstored, hcss⟩ :=
    stylesheet_of_served_component Sample.styled before Sample.rereading
      [.resume 2, .resume 1, .resume 2] 0 2 "/A.svelte" "one"
      "/A.svelte?svelte&type=style&lang.css" js r q rfl rfl (by decide) hstart hserved hparse
      hparseStyle (by decide) (by decide) hload
  -- The one compile for the slot had begun when its record was stored.
  have hcount : last.compiler.begunFor r.key.slot =
      (Sample.styled.run (ran ++ [e])).compiler.begunFor r.key.slot := by
    have hrun : ran ++ [e] = (before ++ Sample.rereading).take (ran.length + 1) := by
      rw [hevents, List.take_length_add_append]
      rfl
    have hlength : ran.length < 5 := by
      have hall : (before ++ Sample.rereading).length = 5 := rfl
      rw [hevents] at hall
      simp at hall
      omega
    have hcurrent : (Sample.styled.run (ran ++ [e])).bench.cache.current? r.key = some f := by
      rw [run_append]
      exact hstored.2
    have hlater : ∀ m < 5, 1 ≤ m → last.compiler.begunFor r.key.slot =
        (Sample.styled.run ((before ++ Sample.rereading).take (m + 1))).compiler.begunFor
          r.key.slot := by decide +kernel
    have hfirst : (Sample.styled.run ((before ++ Sample.rereading).take 1)).bench.cache.current?
        r.key = none := by decide +kernel
    rcases Nat.eq_zero_or_pos ran.length with hzero | hpos
    · rw [hrun, hzero, hfirst] at hcurrent
      cases hcurrent
    · rw [hrun]
      exact hlater _ hlength hpos
  have hresult := hcss hcount _ hstyle
  simp only [TaskResult.content.injEq] at hresult
  exact ⟨hserved, hfailed, hstyle, r, f, hjs, hresult.symm, hserves⟩

end Session

end HotComponents
