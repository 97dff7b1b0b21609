import HotComponents.Proofs.Session.Emptied

/-!
# Stylesheets that served modules import

A main module is served from the record that its call has returned, and imports the stylesheet of
that record. Where the slot is not pending, a task for the stylesheet that runs next is given what
the slot holds. That is the same record, unless the main module was given its record without the
slot's being asked for it: because it was told, and a later record was stored meanwhile, or because
its compile was superseded.

* `loads_at_once`: a task for a stylesheet that meets no ticket ends in its first turn;
* `imported_stylesheet_loads_unless_overtaken_or_emptied`: what such a task is given right after a
  main module was served.
-/

namespace HotComponents

open ModuleId

namespace Session

open Workbench

variable {s : Session} {i : Nat} {sid name : String} {target : Target} {q : Request}

/-- Where the slot is not pending, a new task for a stylesheet ends in its first turn: with that of
the record in the slot, or as too early. -/
theorem loads_at_once (h : Attended s) (hparse : parse s.options sid target = some q)
    (hstyle : q.route = .style)
    (hfree : ∀ t d, s.bench.cache.content? q.key ≠ some (.pending t d)) :
    let loaded := (s.apply (.start name (.load sid target))).resume s.tasks.length
    (∃ g, s.bench.cache.content? q.key = some (.ready g) ∧
      loaded.stage? s.tasks.length = some (.done (.content g.record.css))) ∨
    s.bench.cache.content? q.key = none ∧
      loaded.stage? s.tasks.length = some (.done (.refused (.styleTooEarly q.file))) := by
  intro loaded
  have hs := s.stage?_startTask_new name (.load sid target)
  have hattended : Attended (s.apply (.start name (.load sid target))) := attended_apply h rfl
  obtain ⟨new, hnew, hstyled⟩ := styled_resume hattended hs (.fresh hparse hstyle)
  -- A load that has just been started waits for nothing but a pending slot.
  cases hstyled with
  | waiting hown hwaits =>
    rcases hwaits with ⟨t, d, hpending⟩ | ⟨t, hold, _⟩
    · exact absurd hpending (hfree t d)
    · cases hs.symm.trans hold
  | @found g hready => exact .inl ⟨g, hready, hnew⟩
  | told hold => cases hs.symm.trans hold
  | refused hold => cases hs.symm.trans hold
  | absent hvacant => exact .inr ⟨hvacant, hnew⟩

/-- The task had joined the compile of a record and was told of it, and a later record is the
current one of the slot by its last turn. -/
def Overtaken (s : Session) (i : Nat) (r : Request) (f g : Filed) : Prop :=
  (∃ n code t, s.stage? i = some (.serving r code n none) ∧
    s.bench.calls[n]? = some ⟨r.key, servingIntent r code, .waiting t⟩ ∧
    s.bench.cache.announcement? t = some (.record f)) ∧
  s.bench.cache.current? r.key = some g ∧
  ∃ t u, f.ticket? = some t ∧ g.ticket? = some u ∧ t < u

/-- The stylesheet that a served module imports can be loaded, but for two cases. In every run of
events from a new session that is neither closed nor edited, let a transform end with code while no
compile for its slot is under way, and let a task to load the stylesheet of the same file and target
run next. The code is the main module of a record that the transform's call returned, and the task
ends at once with the stylesheet of that record. But if the transform had joined the compile of the
record, and a later one was stored before the transform took its last turn, the task ends with the
stylesheet of the later one. And if the target is the server, and an answer to a change has emptied
the slot since the compile of the record was begun, the task ends with the stylesheet of the record
that is in the slot, or as too early if there is none. -/
theorem imported_stylesheet_loads_unless_overtaken_or_emptied (start : Session)
    (before mid : List Event) (i : Nat) (old : Stage) (id code sid name : String)
    (target : Target) (js : Code) (r q : Request) :
    let s := start.run (before ++ mid)
    let served := s.resume i
    let j := served.tasks.length
    let loaded := (served.apply (.start name (.load sid target))).resume j
    start.bench = {} → start.tasks = [] → (∀ e ∈ before ++ mid, e.isInside) →
    (start.run before).stage? i = some (.fresh (.transform id code target)) →
    s.stage? i = some old → old.hasEnded = false →
    served.stage? i = some (.done (.content (some js))) →
    parse start.options id target = some r → parse start.options sid target = some q →
    q.route = .style → q.file.components = r.file.components →
    (∀ t d, served.bench.cache.content? r.key ≠ some (.pending t d)) →
    ∃ f, s.ServesFrom i r f ∧ js = mainCode start.options r f.record ∧
      (loaded.stage? j = some (.done (.content f.record.css)) ∨
      (∃ g, s.Overtaken i r f g ∧ loaded.stage? j = some (.done (.content g.record.css))) ∨
      target = .ssr ∧ (∃ t, f.ticket? = some t ∧ EmptiedSince start (before ++ mid) r.key t) ∧
        ((∃ g, served.bench.cache.content? r.key = some (.ready g) ∧
          loaded.stage? j = some (.done (.content g.record.css))) ∨
        served.bench.cache.content? r.key = none ∧
          loaded.stage? j = some (.done (.refused (.styleTooEarly q.file))))) := by
  intro s served j loaded hbench htasks he hstart hold hopen hend hparse hparseStyle hstyle hfile
    hfree
  have hputs : ∀ e ∈ before ++ mid, e.putsNothing := fun e hmem =>
    Event.putsNothing_of_isInside (he e hmem)
  have hbefore : ∀ e ∈ before, e.putsNothing := fun e hmem => hputs e (List.mem_append_left _ hmem)
  have hmid : ∀ e ∈ mid, e.putsNothing := fun e hmem => hputs e (List.mem_append_right _ hmem)
  have hattended : Attended s := attended_run (attended_start htasks) hputs
  have hw : Sound s.bench := sound_events hbench _
  have hoptions : s.options = start.options := options_run (attended_start htasks) hputs
  -- The record that the transform is served from.
  obtain ⟨f, hjs, hserves, hdelivers⟩ : ∃ f, js = mainCode start.options r f.record ∧
      s.ServesFrom i r f ∧ s.Delivers i r f served.bench := by
    obtain ⟨stage, hstage, ht⟩ := transforms_run (Q := fun _ _ => True)
      (attended_run (attended_start htasks) hbefore) hstart .fresh hmid
      fun _ _ _ _ _ _ _ _ _ => trivial
    rw [← run_append] at hstage
    cases hold.symm.trans hstage
    rw [options_run (attended_start htasks) hbefore, ← hoptions] at ht
    obtain ⟨r', f, hparse', hjs, hserves, hdelivers⟩ :=
      transform_delivers hattended hold hopen ht hend
    rw [hoptions] at hparse' hjs
    cases hparse.symm.trans hparse'
    exact ⟨f, hjs, hserves, hdelivers⟩
  have htarget : r.key.target = target := target_of_parse hparse
  have hslot : q.key.slot = r.key.slot :=
    Prod.ext hfile ((target_of_parse hparseStyle).trans htarget.symm)
  have hloads : (∃ g, served.bench.cache.content? r.key = some (.ready g) ∧
      loaded.stage? j = some (.done (.content g.record.css))) ∨
      served.bench.cache.content? r.key = none ∧
        loaded.stage? j = some (.done (.refused (.styleTooEarly q.file))) := by
    have hserved : Attended served := attended_apply hattended (e := .resume i) rfl
    have hparseStyle' : parse served.options sid target = some q := by
      rw [← hparseStyle, ← hoptions]
      exact congrArg (parse · sid target) (options_apply hattended (.resume i))
    rw [← Cache.content?_congr hslot] at hfree ⊢
    exact loads_at_once hserved hparseStyle' hstyle hfree
  have hordered := ordered_unless_emptied hbench htasks he r.key
  refine ⟨f, hserves, hjs, ?_⟩
  cases hdelivers with
  | stored hready =>
    left
    rcases hloads with ⟨g, hg, hresult⟩ | ⟨hvacant, _⟩
    · cases hready.symm.trans hg
      exact hresult
    · cases hready.symm.trans hvacant
  | @told n t code' hstage hcall ha hcache =>
    rcases hordered.told hcall rfl rfl ha with ⟨hssr, hemptied⟩ | ⟨g, hcurrent, hnew⟩
    · exact .inr (.inr ⟨htarget.symm.trans hssr, ⟨t, hw.announcedOwn ha, hemptied⟩, hloads⟩)
    · -- The slot holds the record, or a later one.
      have hresult : loaded.stage? j = some (.done (.content g.record.css)) := by
        rcases hloads with ⟨g', hg', hresult⟩ | ⟨hvacant, _⟩
        · rw [hcache] at hg'
          rw [Cache.current?, hg'] at hcurrent
          cases hcurrent
          exact hresult
        · rw [hcache] at hvacant
          rw [Cache.current?, hvacant] at hcurrent
          cases hcurrent
      rcases hnew with rfl | hlater
      · exact .inl hresult
      · exact .inr (.inl ⟨g, ⟨⟨n, code', t, hstage, hcall, ha⟩, hcurrent, hlater⟩, hresult⟩)
  | @superseded n t code' d hcall hlost hf hcontent =>
    have hgone := (hordered.held hcall rfl rfl).resolve_left (Bool.not_eq_true _ ▸ hlost)
    exact .inr (.inr ⟨htarget.symm.trans hgone.1, ⟨t, hf, hgone.2⟩, hloads⟩)

end Session

namespace Sample

/-- A new session whose compiles end with results that are delivered or lined up. -/
def driven : Session where
  options := { root := ⟨"/"⟩ }
  compiler := { kind := .driven }

/-- A compiled text with a stylesheet of its own. -/
def output (text : String) : CompileResult :=
  .ok { js := ⟨text, none⟩, css := some ⟨text ++ " css", none⟩ }

/-- The stylesheet of the component. -/
def styleId : String := "/A.svelte?svelte&type=style&lang.css"

/-- The main module that a text of the component is served as. -/
def importing (text : String) : Code := ⟨text ++ importLine styleId, none⟩

/-- A compile for the server is under way when the component changes. The component is not loaded in
the browser, so its slot of the server is emptied; then the compile ends. -/
def emptied : List Session.Event :=
  [.start "one" (.transform "/A.svelte" "one" .ssr), .resume 0,
    .start "change" (.change ⟨"/A.svelte"⟩ 1), .resume 1, .deliver 0 (output "one")]

/-- Two tasks wait for a compile of one text: one that has another text, and one that has the same.
The compile ends, and the first of the two compiles its own text. -/
def overtaken : List Session.Event :=
  [typed "one", .resume 0, typed "two", .resume 1, typed "one", .resume 2,
    .deliver 0 (output "one"), .lineUp [output "two"], .resume 0, .resume 1]

/-- Two tasks have the same text, and the first one compiles it. -/
def waiting : List Session.Event := [typed "one", .resume 0, typed "one"]

/-- The second task joins the compile, which ends, and the first task is served. -/
def delivered : List Session.Event := [.resume 1, .deliver 0 (output "one"), .resume 0]

end Sample

namespace Session

open Workbench

/-- Of a server's slot that was emptied while a compile was under way, a module is served that
imports its stylesheet, and that stylesheet is too early. And a task that was overtaken is served
with a module of its own text, while the stylesheet is that of another text. No compile is under way
in either case. -/
theorem imported_stylesheet_missing_or_of_another_text :
    let s := Sample.driven.run Sample.emptied
    let served := s.resume 0
    let loaded := (served.apply (.start "style" (.load Sample.styleId .ssr))).resume 2
    let s' := Sample.driven.run Sample.overtaken
    let served' := s'.resume 2
    let loaded' := (served'.apply (.start "style" (.load Sample.styleId .dom))).resume 3
    (served.stage? 0 = some (.done (.content (some (Sample.importing "one")))) ∧
      served.bench.calls.all (·.hasEnded) ∧
      loaded.stage? 2 = some (.done (.refused (.styleTooEarly ⟨"/A.svelte"⟩)))) ∧
    served'.stage? 2 = some (.done (.content (some (Sample.importing "one")))) ∧
      served'.bench.calls.all (·.hasEnded) ∧
      (∃ record, served'.bench.answer? 2 = some (.record record) ∧
        record.js = ⟨"one", none⟩ ∧ record.css = some ⟨"one css", none⟩) ∧
      loaded'.stage? 3 = some (.done (.content (some ⟨"two css", none⟩))) := by
  intro s served loaded s' served' loaded'
  have hmissing : served.stage? 0 = some (.done (.content (some (Sample.importing "one")))) ∧
      served.bench.calls.all (·.hasEnded) ∧
      loaded.stage? 2 = some (.done (.refused (.styleTooEarly ⟨"/A.svelte"⟩))) := by
    decide +kernel
  have hother : served'.stage? 2 = some (.done (.content (some (Sample.importing "one")))) ∧
      served'.bench.calls.all (·.hasEnded) ∧
      ((served'.bench.answer? 2).bind fun a => match a with
        | .record record => some (record.js, record.css)
        | _ => none) = some (⟨"one", none⟩, some ⟨"one css", none⟩) ∧
      loaded'.stage? 3 = some (.done (.content (some ⟨"two css", none⟩))) := by
    decide +kernel
  obtain ⟨hserved, hended, hanswer, hloaded⟩ := hother
  obtain ⟨a, ha, hrecord⟩ := Option.bind_eq_some_iff.1 hanswer
  cases a with
  | record record =>
    obtain ⟨hjs, hcss⟩ := Prod.mk.inj (Option.some.inj hrecord)
    exact ⟨hmissing, hserved, hended, ⟨record, ha, hjs, hcss⟩, hloaded⟩
  | _ => cases hrecord

/-- A task that has joined a compile of its own text is told the record and served from it, and the
stylesheet that is loaded next is that of the same record. -/
theorem imported_stylesheet_loads_unless_overtaken_or_emptied_joined :
    let s := Sample.driven.run (Sample.waiting ++ Sample.delivered)
    let served := s.resume 1
    let loaded := (served.apply (.start "style" (.load Sample.styleId .dom))).resume 2
    served.stage? 1 = some (.done (.content (some (Sample.importing "one")))) ∧
    ∃ r f, s.ServesFrom 1 r f ∧ Sample.importing "one" = mainCode Sample.driven.options r f.record ∧
      f.record.css = some ⟨"one css", none⟩ ∧
      loaded.stage? 2 = some (.done (.content f.record.css)) := by
  intro s served loaded
  let r : Request := ⟨⟨"/A.svelte"⟩, "/A.svelte", .empty, .dom, none⟩
  let q : Request := ⟨⟨"/A.svelte"⟩, "/A.svelte",
    ⟨[.marker, .artifact .style, .langCss]⟩, .dom, none⟩
  have hparse : parse Sample.driven.options "/A.svelte" .dom = some r ∧
      parse Sample.driven.options Sample.styleId .dom = some q := by decide +kernel
  have hstart : (Sample.driven.run Sample.waiting).stage? 1 =
      some (.fresh (.transform "/A.svelte" "one" .dom)) := by decide +kernel
  have hbefore : (s.stage? 1).map Stage.hasEnded = some false ∧
      (s.bench.cache.current? r.key).bind Filed.ticket? = some 0 := by decide +kernel
  have hafter : served.stage? 1 = some (.done (.content (some (Sample.importing "one")))) ∧
      loaded.stage? 2 = some (.done (.content (some ⟨"one css", none⟩))) ∧
      (served.bench.cache.peek r.key).isSome ∧ served.tasks.length = 2 := by decide +kernel
  obtain ⟨hopen, hticket⟩ := hbefore
  obtain ⟨hserved, hloaded, hready, hlength⟩ := hafter
  have hfree (t : Nat) (d : Option Filed) :
      served.bench.cache.content? r.key ≠ some (.pending t d) := by
    intro hpending
    rw [Cache.peek, hpending] at hready
    cases hready
  simp only [served, s] at hfree hlength
  obtain ⟨old, hold, hopen⟩ := Option.map_eq_some_iff.1 hopen
  obtain ⟨f, hserves, hjs, hresult | ⟨g, hovertaken, _⟩ | ⟨hssr, _⟩⟩ :=
    imported_stylesheet_loads_unless_overtaken_or_emptied Sample.driven Sample.waiting
      Sample.delivered 1 old "/A.svelte" "one" Sample.styleId "style" .dom (Sample.importing "one")
      r q rfl rfl (by decide) hstart hold hopen hserved hparse.1 hparse.2 (by decide) (by decide)
      hfree
  · rw [hlength] at hresult
    have hcss := hloaded.symm.trans hresult
    simp only [Option.some.injEq, Stage.done.injEq, TaskResult.content.injEq] at hcss
    exact ⟨hserved, r, f, hserves, hjs, hcss.symm, hresult⟩
  · -- The slot holds the first record that was computed, so no later one was stored.
    obtain ⟨_, hcurrent, t, u, _, hu, hlt⟩ := hovertaken
    rw [hcurrent] at hticket
    cases hu.symm.trans hticket
    exact absurd hlt (Nat.not_lt_zero t)
  · cases hssr

end Session

end HotComponents
