import HotComponents.Proofs.Session.Transform

/-!
# Why a transform fails

A task that waits for a compile of its slot takes a record only if that is of its own text, but it
takes the error of any compile. So a transform fails with the error of its own text, or with that of
a compile which it had joined, be that of another text.

* `obeys_apply`: a compiler that follows a rule goes on to follow it;
* `warned_apply`: the errors that a task can be told while it waits;
* `transform_fails_for_its_own_text_or_one_it_joined`: what a transform fails with, and that it
  does fail with the error of a compile that it has joined.
-/

namespace HotComponents

open ModuleId

/-! ## Compilers that follow a rule -/

namespace Compiler

variable {c : Compiler} {pauses : Nat} {compile : CompileInput → CompileResult}

/-- The compiler follows a rule, and no result comes to it from outside. -/
structure Obeys (c : Compiler) (pauses : Nat) (compile : CompileInput → CompileResult) : Prop where
  kind : c.kind = .rule pauses compile
  waiting : c.waiting = []
  delivered : c.delivered = []

theorem Obeys.start (h : c.Obeys pauses compile) (input : CompileInput) :
    (c.start input).1.Obeys pauses compile := by
  simp only [Compiler.start, h.kind]
  exact ⟨h.kind, h.waiting, h.delivered⟩

theorem Obeys.deliver (h : c.Obeys pauses compile) (number : Nat) (result : CompileResult) :
    c.deliver? number result = none := by
  rw [deliver?_eq_none_iff, h.waiting]
  exact List.not_mem_nil

/-- A compile that ends at once ends in what the rule says. -/
theorem Obeys.result_of_start (h : c.Obeys pauses compile) {input : CompileInput}
    {result : CompileResult} (hended : (c.start input).2 = .ended result) :
    result = compile input := by
  simp only [Compiler.start, h.kind] at hended
  split at hended
  · exact (Progress.ended.inj hended).symm
  · cases hended

/-- A compile that is resumed ends in what the rule says. -/
theorem Obeys.result_of_resume (h : c.Obeys pauses compile) {input : CompileInput}
    {suspension : Suspension} {result : CompileResult}
    (hended : c.resume input suspension = .ended result) : result = compile input := by
  cases suspension with
  | pausing left =>
    simp only [Compiler.resume, h.kind] at hended
    split at hended
    · cases hended
    · exact (Progress.ended.inj hended).symm
  | awaiting number => simp [Compiler.resume, h.delivered] at hended

end Compiler

namespace Session

open Workbench

variable {s start : Session} {i j n pauses : Nat} {compile : CompileInput → CompileResult}
  {old stage : Stage} {events : List Event} {code code' : String} {r r' : Request}

theorem compileEnds_of_obeys {after : Compiler} {input : CompileInput} {result : CompileResult}
    (hobeys : s.compiler.Obeys pauses compile) (hends : s.CompileEnds after i input result) :
    result = compile input := by
  cases hends with
  | awaited hstage hcompiling hinput hended =>
    subst hinput
    exact hobeys.result_of_resume hended
  | atOnce hstage hidle hstart => exact hobeys.result_of_start (congrArg Prod.snd hstart)

/-- Work on the compiler leaves it to its rule. -/
theorem Worked.obeys {y : Session} {after : Compiler} (h : s.Worked after i y)
    (hobeys : s.compiler.Obeys pauses compile) : y.compiler.Obeys pauses compile := by
  rcases h.compiler with hsame | ⟨input, hstart⟩
  · rwa [hsame]
  · rw [hstart]
    exact hobeys.start input

/-- An event leaves the compiler to its rule. -/
theorem obeys_apply (h : Attended s) (hobeys : s.compiler.Obeys pauses compile) (e : Event) :
    (s.apply e).compiler.Obeys pauses compile := by
  cases e with
  | resume i =>
    change (s.resume i).compiler.Obeys pauses compile
    rcases turned_resume h i with ⟨old, _, hturned⟩ | hsame
    · generalize s.resume i = s' at hturned
      cases hturned with
      | intro hworked => exact hworked.obeys hobeys
    · rwa [hsame]
  | cancel i =>
    change (s.cancel i).compiler.Obeys pauses compile
    rcases cancelled_cancel s i with ⟨old, y, _, hworked, _, hcancel⟩ | hsame
    · rw [hcancel]
      exact hworked.obeys hobeys
    · rwa [hsame]
  -- Results that are lined up are for compilers that follow no rule.
  | lineUp results => exact ⟨hobeys.kind, hobeys.waiting, hobeys.delivered⟩
  | deliver number result =>
    change ((s.compiler.deliver? number result).getD s.compiler).Obeys pauses compile
    -- No compile waits for a delivery.
    rw [hobeys.deliver]
    exact hobeys
  | resolve id importer target =>
    obtain ⟨resolver, journal, happly⟩ := apply_resolve s id importer target
    rw [happly]
    exact hobeys
  | _ => exact hobeys

theorem obeys_run (h : Attended s) (hobeys : s.compiler.Obeys pauses compile)
    (he : ∀ e ∈ events, e.putsNothing) : (s.run events).compiler.Obeys pauses compile := by
  induction events generalizing s with
  | nil => exact hobeys
  | cons e events ih =>
    rw [List.forall_mem_cons] at he
    exact ih (attended_apply h he.1) (obeys_apply h hobeys e) he.2

/-! ## What a task is told -/

/-- Task `i`, which serves a main module, waits for the compile of another text that task `j` has
under way, or of the same text: the call of the one waits for the ticket that the call of the other
computes under. -/
def Joins (s : Session) (i : Nat) (r : Request) (code : String) (j : Nat) (r' : Request)
    (code' : String) : Prop :=
  ∃ n n' c t d, s.stage? i = some (.serving r code n none) ∧
    s.stage? j = some (.serving r' code' n' (some c)) ∧
    s.bench.phase? n = some (.waiting t) ∧ s.bench.phase? n' = some (.computing t d)

/-- Every error that is announced to call number `n` while it waits has a property. -/
def Told (n : Nat) (P : BuildError → Prop) : Workbench → Prop :=
  Hears fun m _ a => m = n → ∀ e, a = .failure e → P e

/-- Every error that a task for a main module is told while it waits has a property. -/
def Warned (s : Session) (i : Nat) (B : Request → String → BuildError → Prop) : Prop :=
  ∀ (r : Request) (code : String) (n : Nat) (making : Option Compiling),
    s.stage? i = some (.serving r code n making) → Told n (B r code) s.bench

/-- A call that computes and is not to recompute is that of a task that serves a main module. -/
theorem serving_of_computing (h : Attended s) (hj : s.stage? j = some stage)
    (hn : stageCall? stage = some n) {key : Key} {intent : Intent} {t : Nat} {d : Option Filed}
    (hcall : s.bench.calls[n]? = some ⟨key, intent, .computing t d⟩)
    (hintent : intent ≠ .recompute) :
    ∃ r code c, stage = .serving r code n (some c) ∧ key = r.key ∧
      c.input = s.options.compileInput r.file code r.target := by
  have hfits := h.fits hj
  cases stage with
  | serving r code m making =>
    cases hn
    cases making with
    -- A task without a compile waits; its call does not compute.
    | none =>
      obtain ⟨t', hwaits⟩ := hfits
      cases hcall.symm.trans hwaits
    | some c =>
      obtain ⟨⟨t', d', hcomputes⟩, hinput⟩ := hfits
      cases hcall.symm.trans hcomputes
      exact ⟨r, code, c, rfl, rfl, hinput⟩
  -- The stylesheet's call never computes.
  | styling r m =>
    cases hn
    obtain ⟨t', hwaits⟩ := hfits
    cases hcall.symm.trans hwaits
  | updating u component m making =>
    cases hn
    cases making with
    | none =>
      obtain ⟨t', hwaits⟩ := hfits
      cases hcall.symm.trans hwaits
    | some c =>
      obtain ⟨⟨t', d', hcomputes⟩, _⟩ := hfits
      cases hcall.symm.trans hcomputes
      exact absurd rfl hintent
  | _ => cases hn

/-- A task whose call waits while another call computes has not made that other call: when a compute
ends, it is the only call of its task. -/
theorem not_owns_of_alone {w : Workbench} {m : Nat} {call leader : Call} {t u : Nat}
    {d : Option Filed} (halone : s.Alone j m w) (hcall : w.calls[n]? = some call)
    (hwaits : call.phase = .waiting t) (hleader : w.calls[m]? = some leader)
    (hleads : leader.phase = .computing u d) : ¬ s.Owns j n := by
  intro hown
  obtain rfl := halone n hown (List.getElem?_eq_some_iff.1 hcall).1
  cases hcall.symm.trans hleader
  rw [hwaits] at hleads
  cases hleads

/-- An error is announced where a call that is not to recompute has ended its compile in failure. -/
theorem compiled_of_release {after : Compiler} {w : Workbench} {m : Move} {l t : Nat}
    {leader : Call} {d : Option Filed} {e : BuildError} (hm : s.Deed after j w m)
    (hleader : w.calls[l]? = some leader) (hleads : leader.phase = .computing t d)
    (hreleases : leader.Releases l t m (.failure e)) :
    s.Owns j l ∧ s.Alone j l w ∧ leader.intent ≠ .recompute ∧
      ∃ input failure, s.CompileEnds after j input (.error failure) ∧
        e = .compile ⟨input.file, failure⟩ := by
  generalize ha : Announcement.failure e = a at hreleases
  -- An announcement of an error is made by nobody but a leader that fails.
  cases hreleases with
  | land => cases ha
  | quit => cases ha
  | fail e' =>
    -- A recompute announces that it has come to nothing, but not its error.
    have hintent : leader.intent ≠ .recompute := by
      intro hrecompute
      rw [Call.failureAnnouncement, hrecompute] at ha
      cases ha
    generalize houtcome : (Except.error e' : Except BuildError Record) = outcome at hm
    cases hm with
    | unread hown hcall =>
      cases hcall.symm.trans hleader
      exact absurd rfl hintent
    | @compiled n t' intent d' input result hown halone hends hcall =>
      cases result with
      | ok output => cases houtcome
      | error failure =>
        cases houtcome
        refine ⟨hown, halone, hintent, input, failure, hends, ?_⟩
        unfold Call.failureAnnouncement at ha
        split at ha
        · cases ha
        · exact Announcement.failure.inj ha

/-- Where an error is announced for a ticket that a call waits for, the task that lets it be has
been serving a main module, and the compile that it was suspended on has failed. -/
theorem serving_of_release {after : Compiler} {w : Workbench} {m : Move} {l t : Nat}
    {call leader : Call} {d : Option Filed} {e : BuildError} (h : Attended s) (hw : Sound s.bench)
    (hdeeds : s.Deeds after j w) (hm : s.Deed after j w m) (hcall : w.calls[n]? = some call)
    (hwaits : call.phase = .waiting t) (hleader : w.calls[l]? = some leader)
    (hleads : leader.phase = .computing t d) (hreleases : leader.Releases l t m (.failure e)) :
    s.bench.calls[n]? = some call ∧ s.bench.calls[l]? = some leader ∧
    ∃ r code c failure, s.stage? j = some (.serving r code l (some c)) ∧ leader.key = r.key ∧
      s.CompileEnds after j (s.options.compileInput r.file code r.target) (.error failure) ∧
      e = .compile ⟨r.file, failure⟩ := by
  obtain ⟨hown, halone, hintent, input, failure, hends, he⟩ :=
    compiled_of_release hm hleader hleads hreleases
  -- The call that waits has not moved in this turn, so it waits from before it.
  rw [hdeeds.calls_eq (not_owns_of_alone halone hcall hwaits hleader hleads)] at hcall
  have hissued := hw.waitingIssued hcall hwaits
  have hleader₀ := (hdeeds.computing hleader hleads).resolve_right (Nat.not_le_of_lt hissued)
  obtain ⟨stage, hstage, hl⟩ := hown.resolve_left
    (Nat.not_le_of_lt (List.getElem?_eq_some_iff.1 hleader₀).1)
  obtain ⟨key, intent, phase⟩ := leader
  cases hleads
  obtain ⟨r, code, c, rfl, rfl, hinput⟩ := serving_of_computing h hstage hl hleader₀ hintent
  cases hl
  have hawaited : input = c.input := by
    cases hends with
    | awaited hstage' hcompiling hinput' =>
      cases hstage.symm.trans hstage'
      cases hcompiling
      exact hinput'.symm
    | atOnce hstage' hidle =>
      cases hstage.symm.trans hstage'
      cases hidle
  rw [hawaited, hinput] at hends he
  exact ⟨hcall, hleader₀, r, code, c, failure, hstage, rfl, hends, he⟩

/-- Whoever waits while another task lets an error be announced has joined the compile of that
task. -/
theorem joins_of_release {after : Compiler} {w : Workbench} {m : Move} {l t : Nat}
    {call leader : Call} {making : Option Compiling} {d : Option Filed} {e : BuildError}
    (h : Attended s) (hw : Sound s.bench) (hdeeds : s.Deeds after j w) (hm : s.Deed after j w m)
    (hs : s.stage? i = some (.serving r code n making)) (hcall : w.calls[n]? = some call)
    (hwaits : call.phase = .waiting t) (hleader : w.calls[l]? = some leader)
    (hleads : leader.phase = .computing t d) (hreleases : leader.Releases l t m (.failure e)) :
    ∃ r' code' failure, s.Joins i r code j r' code' ∧ r'.key.slot = r.key.slot ∧
      s.CompileEnds after j (s.options.compileInput r'.file code' r'.target) (.error failure) ∧
      e = .compile ⟨r'.file, failure⟩ := by
  obtain ⟨hcall, hleader, r', code', c, failure, hstage, hkey', hends, he⟩ :=
    serving_of_release h hw hdeeds hm hcall hwaits hleader hleads hreleases
  -- A task that waits has no compile of its own under way.
  have hmaking : making = none ∧ call.key = r.key := by
    have hfits := h.fits hs
    cases making with
    | none =>
      obtain ⟨t', hfits⟩ := hfits
      cases hfits.symm.trans hcall
      exact ⟨rfl, rfl⟩
    | some c' =>
      obtain ⟨⟨t', d', hfits⟩, _⟩ := hfits
      cases hfits.symm.trans hcall
      cases hwaits
  obtain ⟨rfl, hkey⟩ := hmaking
  have hslot := hw.paired hcall hwaits hleader hleads
  rw [hkey, hkey'] at hslot
  refine ⟨r', code', failure, ⟨n, l, c, t, d, hs, hstage, ?_, ?_⟩, hslot, hends, he⟩
  · rw [phase?, hcall, Option.map_some, hwaits]
  · rw [phase?, hleader, Option.map_some, hleads]

/-- What one event preserves: errors that a call is told have a property that the errors of released
leaders have. -/
theorem told_apply {P : BuildError → Prop} {e : Event} (h : Attended s) (hw : Sound s.bench)
    (he : e.putsNothing) (htold : Told n P s.bench)
    (hP : ∀ {j l t : Nat} {w : Workbench} {m : Move} {call leader : Call} {d : Option Filed}
      {b : BuildError}, e = .resume j → s.Deeds (s.resume j).compiler j w →
      s.Deed (s.resume j).compiler j w m → w.calls[n]? = some call → call.phase = .waiting t →
      w.calls[l]? = some leader → leader.phase = .computing t d →
      leader.Releases l t m (.failure b) → P b) : Told n P (s.apply e).bench := by
  refine (holds_apply (J := fun w => Sound w ∧ Told n P w) h he ⟨hw, htold⟩ ?_ ?_).2
  · -- Moves on behalf of nobody announce no errors.
    intro w m hm hJ
    refine ⟨sound_step hJ.1 (step_apply w m), hears_step hJ.1 (step_apply w m) hJ.2 ?_⟩
    rintro i l t call leader d a hcall hwaits hleader hleads hreleases rfl b rfl
    generalize ha : Announcement.failure b = a at hreleases
    cases hreleases with
    | quit => cases ha
    | _ => cases hm
  · -- What a task does in its turn announces its error to those that wait.
    intro j w m hj hdeeds hm hJ
    refine ⟨sound_step hJ.1 (step_apply w m), hears_step hJ.1 (step_apply w m) hJ.2 ?_⟩
    rintro i l t call leader d a hcall hwaits hleader hleads hreleases rfl b rfl
    exact hP hj hdeeds hm hcall hwaits hleader hleads hreleases

/-- What one event preserves: a task that serves a main module is warned of the errors of the
compiles that it joins. -/
theorem warned_apply {B : Request → String → BuildError → Prop} {e : Event} (h : Attended s)
    (hw : Sound s.bench) (hs : s.stage? i = some old) (hapart : old.isApart = false)
    (hwarned : Warned s i B) (he : e.putsNothing)
    (hB : ∀ {j : Nat} {r r' : Request} {code code' : String} {failure : Failure},
      e = .resume j → s.Joins i r code j r' code' → r'.key.slot = r.key.slot →
      s.EndsCompile j (s.options.compileInput r'.file code' r'.target) (.error failure) →
      B r code (.compile ⟨r'.file, failure⟩)) : Warned (s.apply e) i B := by
  intro r code n making hstage
  by_cases hi : e.actor? = some i
  · cases e with
    | resume j =>
      cases hi
      change (s.resume i).stage? i = some _ at hstage
      rcases turned_resume h i with ⟨old', hold, hturned⟩ | hsame
      · -- What the task waits for after its own turn is not its own compile.
        cases hs.symm.trans hold
        generalize hs' : s.resume i = s' at hturned hstage
        cases hturned with
        | @intro y new hworked hfits hown hnext =>
          cases (hworked.stage?_setStage hs new).symm.trans hstage
          have hown : s.Owns i n := hown n rfl
          refine told_apply h hw he ?_ ?_
          · cases hnext with
            | apart hapart' =>
              rw [hapart] at hapart'
              cases hapart'
            | serving hasks =>
              rcases hown with hle | ⟨stage, hi, hn⟩
              · rintro m t call a hcall hwaits ha rfl
                rw [List.getElem?_eq_none hle] at hcall
                cases hcall
              · cases hs.symm.trans hi
                cases hasks with
                | waiting =>
                  cases hn
                  exact hwarned _ _ _ _ hs
                | _ => cases hn
          · intro j l t w m call leader d b hj hdeeds hm hcall hwaits hleader hleads hreleases
            cases hj
            obtain ⟨_, halone, _⟩ := compiled_of_release hm hleader hleads hreleases
            exact absurd hown (not_owns_of_alone halone hcall hwaits hleader hleads)
      · change Told n (B r code) (s.resume i).bench
        rw [hsame] at hstage ⊢
        exact hwarned _ _ _ _ hstage
    | cancel j =>
      cases hi
      change (s.cancel i).stage? i = some _ at hstage
      rcases cancelled_cancel s i with ⟨old', y, _, hworked, _, hcancel⟩ | hsame
      · rw [hcancel, hworked.stage?_setStage hs] at hstage
        cases hstage
      · change Told n (B r code) (s.cancel i).bench
        rw [hsame] at hstage ⊢
        exact hwarned _ _ _ _ hstage
    | _ => cases hi
  · cases (stage?_apply_of_ne hs hi).symm.trans hstage
    refine told_apply h hw he (hwarned _ _ _ _ hs) ?_
    intro j l t w m call leader d b hj hdeeds hm hcall hwaits hleader hleads hreleases
    obtain ⟨r', code', failure, hjoins, hslot, hends, rfl⟩ :=
      joins_of_release h hw hdeeds hm hs hcall hwaits hleader hleads hreleases
    exact hB hj hjoins hslot hends

theorem Transforms.isApart {o : Options} {id : String} {target : Target}
    {Q : Request → Except BuildError Record → Prop} (h : Transforms o id code target Q stage) :
    stage.isApart = false := by
  cases h <;> rfl

/-- What a run preserves: a task that serves a main module is warned of the errors of the compiles
that it joins. -/
theorem warned_run {B : Request → String → BuildError → Prop} {id : String} {target : Target}
    (h : Attended s) (hw : Sound s.bench) (hs : s.stage? i = some stage)
    (ht : Transforms s.options id code target (fun _ _ => True) stage) (hwarned : Warned s i B)
    (he : ∀ e ∈ events, e.putsNothing)
    (hB : ∀ (ran rest : List Event) {j : Nat} {r r' : Request} {code code' : String}
      {failure : Failure}, events = ran ++ .resume j :: rest →
      (s.run ran).Joins i r code j r' code' → r'.key.slot = r.key.slot →
      (s.run ran).EndsCompile j (s.options.compileInput r'.file code' r'.target)
        (.error failure) → B r code (.compile ⟨r'.file, failure⟩)) :
    Warned (s.run events) i B := by
  induction events generalizing s stage with
  | nil => exact hwarned
  -- The first event is the step; the property of the rest is asked of the longer run.
  | cons e events ih =>
    rw [List.forall_mem_cons] at he
    obtain ⟨next, hnext, htnext⟩ := transforms_apply (e := e) h hs ht fun _ _ _ => trivial
    have hoptions := options_apply h e
    have hwarned' := warned_apply h hw hs ht.isApart hwarned he.1
      fun heq hjoins hslot hends => hB [] events (by rw [heq]; rfl) hjoins hslot hends
    obtain ⟨moves, hmoves⟩ := bench_apply s e
    have hw' : Sound (s.apply e).bench := hmoves ▸ sound_run hw moves
    rw [← hoptions] at htnext
    refine ih (attended_apply h he.1) hw' hnext htnext hwarned' he.2 ?_
    intro ran rest j r r' code code' failure hevents hjoins hslot hends
    rw [hoptions] at hends
    exact hB (e :: ran) rest (congrArg (e :: ·) hevents) hjoins hslot hends

/-! ## A task that has joined a compile that fails -/

/-- A task that is told an error ends with it. -/
theorem refused_resume {t : Nat} {e : BuildError}
    (hs : s.stage? i = some (.serving r code n none))
    (hcall : s.bench.calls[n]? = some ⟨r.key, servingIntent r code, .waiting t⟩)
    (ha : s.bench.cache.announcement? t = some (.failure e)) :
    (s.resume i).stage? i = some (.done (.refused (.build e))) := by
  have hheard : (s.act (.resume n)).bench.calls[n]? =
      some ⟨r.key, servingIntent r code, .returned (.failure e)⟩ := by
    simp [Workbench.apply, hcall, Call.resume, ha, Call.heard?, servingIntent, Call.atPhase,
      calls_update hcall]
  rw [resume_eq hs]
  simp only [resumeFrom, advanceServing, phase?, hheard, Option.map_some, endServing, answer?,
    Option.bind_some, Call.answer?, Answer.map]
  have hsome : ((s.act (.resume n)).stage? i).isSome := Option.isSome_of_eq_some hs
  exact stage?_setStage_self hsome _

/-- While a task takes no turn it waits for the same ticket, and what is announced of the ticket
stays announced. -/
theorem waits_run {t : Nat} {call : Call} {a : Announcement} (h : Attended s) (hw : Sound s.bench)
    (hs : s.stage? i = some stage) (hn : stageCall? stage = some n)
    (hcall : s.bench.calls[n]? = some call) (ha : s.bench.cache.announcement? t = some a)
    (he : ∀ e ∈ events, e.putsNothing) (hne : ∀ e ∈ events, e.actor? ≠ some i) :
    (s.run events).stage? i = some stage ∧ (s.run events).bench.calls[n]? = some call ∧
      (s.run events).bench.cache.announcement? t = some a := by
  obtain ⟨moves, hmoves⟩ := bench_run s events
  have hlater := announcement?_run hw ha moves
  rw [← hmoves] at hlater
  suffices hkept : (s.run events).stage? i = some stage ∧
      (s.run events).bench.calls[n]? = some call from ⟨hkept.1, hkept.2, hlater⟩
  clear ha hmoves hlater hw
  induction events generalizing s with
  | nil => exact ⟨hs, hcall⟩
  | cons e events ih =>
    rw [List.forall_mem_cons] at he hne
    have hstays := (calls_apply_of_stageCall? h he.1 hs hn hne.1).trans hcall
    exact ih (attended_apply h he.1) (stage?_apply_of_ne hs hne.1) hstays he.2 hne.2

/-- A compile that has been joined fails where the task that has it under way takes its turn. -/
theorem bench_resume_of_fails {c : Compiling} {failure : Failure}
    (hs : s.stage? j = some (.serving r' code' n (some c)))
    (hends : s.EndsCompile j c.input (.error failure)) :
    (s.resume j).bench =
      s.bench.apply (.finish n (.error (.compile ⟨c.input.file, failure⟩))) := by
  have hended : s.compiler.resume c.input c.suspension = .ended (.error failure) := by
    cases hends with
    | awaited hstage hcompiling _ hended =>
      cases hs.symm.trans hstage
      cases hcompiling
      exact hended
    | atOnce hstage hidle =>
      cases hs.symm.trans hstage
      cases hidle
  rw [resume_eq hs]
  simp only [resumeFrom, hended, progressServing, finishServing, judge, Options.judge,
    Except.mapError, endServing]
  split <;> rfl

/-- A task that has joined a compile which fails ends with the error of that compile, as soon as it
takes a turn. -/
theorem refused_of_joins {failure : Failure} (h : Attended s) (hw : Sound s.bench)
    (hjoins : s.Joins i r code j r' code')
    (hends : s.EndsCompile j (s.options.compileInput r'.file code' r'.target) (.error failure))
    (he : ∀ e ∈ events, e.putsNothing) (hne : ∀ e ∈ events, e.actor? ≠ some i) :
    (s.run (.resume j :: events ++ [.resume i])).stage? i =
      some (.done (.refused (.build (.compile ⟨r'.file, failure⟩)))) := by
  obtain ⟨n, n', c, t, d, hi, hj, hwaits, hcomputes⟩ := hjoins
  obtain ⟨u, hcall⟩ := h.fits hi
  obtain ⟨⟨u', d', hleader⟩, hinput⟩ := h.fits hj
  rw [phase?, hcall] at hwaits
  cases hwaits
  rw [phase?, hleader] at hcomputes
  cases hcomputes
  have hij : (Event.resume j).actor? ≠ some i := by
    intro hji
    cases hji
    cases hi.symm.trans hj
  rw [← hinput] at hends
  have hfails := bench_resume_of_fails hj hends
  rw [hinput] at hfails
  have ha : (s.resume j).bench.cache.announcement? t =
      some (.failure (.compile ⟨r'.file, failure⟩)) := by
    rw [hfails]
    simp [Workbench.apply, hleader, Call.finish, update, Cache.announcement?_announce,
      Call.failureAnnouncement, servingIntent, Options.compileInput]
  have hcall' := (calls_apply_of_stageCall? (e := .resume j) h rfl hi rfl hij).trans hcall
  have hw' : Sound (s.resume j).bench := by
    rw [hfails]
    exact sound_step hw (step_apply _ _)
  obtain ⟨hstage, hstays, hknown⟩ := waits_run (attended_apply (e := .resume j) h rfl) hw'
    (stage?_apply_of_ne hi hij) rfl hcall' ha he hne
  rw [run_append]
  exact refused_resume hstage hstays hknown

/-! ## What a transform fails with -/

/-- In a run of events, a task that serves a request from a text has joined a compile of the same
file and target, which another task has then ended with an error. -/
def JoinedFailure (start : Session) (compile : CompileInput → CompileResult) (events : List Event)
    (i : Nat) (r : Request) (code : String) (e : BuildError) : Prop :=
  ∃ (ran rest : List Event) (j : Nat) (r' : Request) (code' : String) (failure : Failure),
    events = ran ++ .resume j :: rest ∧ (start.run ran).Joins i r code j r' code' ∧
    r'.key.slot = r.key.slot ∧
    (start.run ran).EndsCompile j (start.options.compileInput r'.file code' r'.target)
      (.error failure) ∧
    compile (start.options.compileInput r'.file code' r'.target) = .error failure ∧
    e = .compile ⟨r'.file, failure⟩

theorem JoinedFailure.append {e : BuildError} (h : JoinedFailure start compile events i r code e)
    (more : List Event) : JoinedFailure start compile (events ++ more) i r code e := by
  obtain ⟨ran, rest, j, r', code', failure, rfl, hjoins⟩ := h
  refine ⟨ran, rest ++ more, j, r', code', failure, ?_, hjoins⟩
  rw [List.append_assoc, List.cons_append]

/-- In a new session whose compiler follows a rule, the error that a transform obtains is that of
its own compile or of one that it has joined. -/
theorem failure_of_obtains {before ran : List Event} {id : String} {target : Target}
    {e : BuildError} (hbench : start.bench = {}) (htasks : start.tasks = [])
    (hobeys : start.compiler.Obeys pauses compile) (he : ∀ e ∈ before ++ ran, e.putsNothing)
    (hfresh : (start.run before).stage? i = some (.fresh (.transform id code target)))
    (hobtains : (start.run (before ++ ran)).Obtains
      ((start.run (before ++ ran)).resume i).compiler i old r code (.error e))
    (hold : (start.run (before ++ ran)).stage? i = some old) :
    (∃ failure, compile (start.options.compileInput r.file code r.target) = .error failure ∧
        e = .compile ⟨r.file, failure⟩) ∨
      JoinedFailure start compile (before ++ ran) i r code e := by
  have hstart : Attended start := attended_start htasks
  have hoptions {more : List Event} (hmore : ∀ e ∈ more, e.putsNothing) :=
    options_run hstart hmore
  have hrule {more : List Event} (hmore : ∀ e ∈ more, e.putsNothing) :=
    obeys_run hstart hobeys hmore
  have hbefore := (List.forall_mem_append.1 he).1
  generalize houtcome : (Except.error e : Except BuildError Record) = outcome at hobtains
  cases hobtains with
  | found => cases houtcome
  | told => cases houtcome
  | @compiled result hends =>
    left
    rw [hoptions he] at hends houtcome
    have hresult := compileEnds_of_obeys (hrule he) hends
    cases result with
    | ok output => cases houtcome
    | error failure =>
      cases houtcome
      exact ⟨failure, hresult.symm, rfl⟩
  | @refused n t b hserving hcall ha =>
    right
    cases houtcome
    subst hserving
    -- It is warned of no other errors than those of compiles that it has joined.
    have hwarned : Warned ((start.run before).run ran) i
        (fun r code e => JoinedFailure start compile (before ++ ran) i r code e) := by
      refine warned_run (attended_run hstart hbefore) (sound_events hbench before) hfresh .fresh ?_
        (List.forall_mem_append.1 he).2 ?_
      · intro r code n making hnone
        cases hfresh.symm.trans hnone
      · rintro ran rest j r r' code code' failure rfl hjoins hslot hends
        rw [← run_append] at hjoins hends
        have hran : ∀ e ∈ before ++ ran, e.putsNothing := by
          rw [← List.append_assoc, List.forall_mem_append] at he
          exact he.1
        rw [hoptions hbefore] at hends
        refine ⟨before ++ ran, rest, j, r', code', failure, ?_, hjoins, hslot, hends, ?_, rfl⟩
        · rw [List.append_assoc]
        · exact (compileEnds_of_obeys (hrule hran) hends).symm
    rw [← run_append] at hwarned
    exact hwarned _ _ _ _ hold n t _ _ hcall rfl ha rfl _ rfl

/-- What a transform fails with. Take a new session whose compiler follows a rule, and any run of
events in which no record is put into the cache from outside. When a task that was started to
transform a text ends in an error, then either the rule fails with this error for that very text, or
the task had joined a compile: while its call waited, another task ended a compile of the same file
and target, and the error is what the rule fails with for the text of that one. A task that has
joined a compile is not spared: if the compile fails, the task ends with that error as soon as it
takes a turn, whatever its own text is. -/
theorem transform_fails_for_its_own_text_or_one_it_joined (start : Session) (pauses : Nat)
    (compile : CompileInput → CompileResult) :
    start.bench = {} → start.tasks = [] → start.compiler = { kind := .rule pauses compile } →
    (∀ (before after : List Event) (i : Nat) (id code : String) (target : Target) (e : BuildError),
      (∀ x ∈ before ++ after, x.putsNothing) →
      (start.run before).stage? i = some (.fresh (.transform id code target)) →
      (start.run (before ++ after)).stage? i = some (.done (.refused (.build e))) →
      ∃ r, parse start.options id target = some r ∧
        ((∃ failure, compile (start.options.compileInput r.file code r.target) = .error failure ∧
            e = .compile ⟨r.file, failure⟩) ∨
          JoinedFailure start compile (before ++ after) i r code e)) ∧
    ∀ (before after : List Event) (i j : Nat) (r r' : Request) (code code' : String)
        (failure : Failure),
      (∀ x ∈ before ++ after, x.putsNothing) → (∀ x ∈ after, x.actor? ≠ some i) →
      (start.run before).Joins i r code j r' code' →
      (start.run before).EndsCompile j (start.options.compileInput r'.file code' r'.target)
        (.error failure) →
      (start.run (before ++ (.resume j :: after ++ [.resume i]))).stage? i =
        some (.done (.refused (.build (.compile ⟨r'.file, failure⟩)))) := by
  intro hbench htasks hcompiler
  have hobeys : start.compiler.Obeys pauses compile := by
    rw [hcompiler]
    exact ⟨rfl, rfl, rfl⟩
  have hstart : Attended start := attended_start htasks
  constructor
  · intro before after i id code target e he hfresh hend
    have hbefore := (List.forall_mem_append.1 he).1
    have hoptions := options_run hstart hbefore
    let Q (r : Request) (outcome : Except BuildError Record) : Prop := ∀ e, outcome = .error e →
      (∃ failure, compile (start.options.compileInput r.file code r.target) = .error failure ∧
        e = .compile ⟨r.file, failure⟩) ∨ JoinedFailure start compile (before ++ after) i r code e
    obtain ⟨stage, hstage, ht⟩ := transforms_run (Q := Q) (attended_run hstart hbefore) hfresh
      .fresh (List.forall_mem_append.1 he).2
      fun ran rest {old r outcome} hafter hold _ hobtains => by
        rintro b rfl
        rw [← run_append] at hold hobtains
        rw [hafter, ← List.append_assoc] at he ⊢
        have hran := (List.forall_mem_append.1 he).1
        exact (failure_of_obtains hbench htasks hobeys hran hfresh hobtains hold).imp_right
          fun hjoined => hjoined.append _
    rw [← run_append, hend] at hstage
    generalize hdone : Stage.done (.refused (.build e)) = last at hstage
    cases hstage
    cases ht with
    | @served r outcome hparse hobtained =>
      rw [hoptions] at hparse hdone
      cases outcome with
      | ok record => cases hdone
      | error b =>
        cases hdone
        exact ⟨r, hparse, hobtained _ rfl⟩
    | _ => cases hdone
  · intro before after i j r r' code code' failure he hne hjoins hends
    rw [List.forall_mem_append] at he
    rw [← options_run hstart he.1] at hends
    rw [run_append]
    exact refused_of_joins (attended_run hstart he.1) (sound_events hbench before) hjoins hends
      he.2 hne

/-- A task with a valid text waits for the compile of another text. When that fails, the task ends
with its error, though the rule takes the task's own text. -/
theorem transform_fails_for_its_own_text_or_one_it_joined_waiting :
    let before : List Event := [Sample.typed "bad", .resume 0, Sample.typed "good"]
    let waiting : List Event := before ++ [.resume 1]
    let after : List Event := [.resume 1, .resume 0, .resume 1]
    let input := Sample.editor.options.compileInput ⟨"/A.svelte"⟩ "good" .dom
    let e : BuildError := .compile ⟨⟨"/A.svelte"⟩, { message := "unexpected end" }⟩
    Sample.compile input = .ok { js := ⟨"good", none⟩ } ∧
    (Sample.editor.run (before ++ after)).stage? 1 = some (.done (.refused (.build e))) ∧
    (∃ r, JoinedFailure Sample.editor Sample.compile (before ++ after) 1 r "good" e) ∧
    (Sample.editor.run (waiting ++ (.resume 0 :: [] ++ [.resume 1]))).stage? 1 =
      some (.done (.refused (.build e))) := by
  intro before waiting after input e
  obtain ⟨hfails, hspares⟩ := transform_fails_for_its_own_text_or_one_it_joined Sample.editor 1
    Sample.compile rfl rfl rfl
  have hstart : (Sample.editor.run before).stage? 1 =
      some (.fresh (.transform "/A.svelte" "good" .dom)) := by decide +kernel
  have hend : (Sample.editor.run (before ++ after)).stage? 1 =
      some (.done (.refused (.build e))) := by decide +kernel
  refine ⟨rfl, hend, ?_, ?_⟩
  · obtain ⟨r, _, ⟨failure, hown, _⟩ | hjoined⟩ :=
      hfails before after 1 "/A.svelte" "good" .dom e (by decide) hstart hend
    · -- The rule takes every text but one.
      cases hown
    · exact ⟨r, hjoined⟩
  · let r : Request := ⟨⟨"/A.svelte"⟩, "/A.svelte", .empty, .dom, none⟩
    let c : Compiling :=
      ⟨Sample.editor.options.compileInput ⟨"/A.svelte"⟩ "bad" .dom, .pausing 1⟩
    have hjoins : (Sample.editor.run waiting).Joins 1 r "good" 0 r "bad" :=
      ⟨1, 0, c, 0, none, by decide +kernel, by decide +kernel, by decide +kernel,
        by decide +kernel⟩
    have hobeys : (Sample.editor.run waiting).compiler.Obeys 1 Sample.compile :=
      obeys_run (attended_start rfl) ⟨rfl, rfl, rfl⟩ (by decide)
    have hended : (Sample.editor.run waiting).compiler.resume c.input c.suspension =
        .ended (.error { message := "unexpected end" }) := by
      simp only [Compiler.resume, c, hobeys.kind]
      rfl
    have hserves : (Sample.editor.run waiting).stage? 0 = some (.serving r "bad" 0 (some c)) := by
      decide +kernel
    have hends : (Sample.editor.run waiting).EndsCompile 0 c.input
        (.error { message := "unexpected end" }) := .awaited hserves rfl rfl hended
    exact hspares waiting [] 1 0 r r "good" "bad" { message := "unexpected end" } (by decide)
      (by decide) hjoins hends

end Session

end HotComponents
