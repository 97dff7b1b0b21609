import HotComponents.Proofs.Session.Attended

/-!
# What a transform comes to

A task that compiles the main module of an identifier from a text that it was given ends in what it
obtains in its last turn: a record or an error. A record is of that very text, whoever made it. An
error is that of its own compile, or that of a compile of the same slot which it joined, whatever
text that was of.

* `transforms_apply`: how such a task goes on;
* `transform_serves_its_own_text`: the record that is served is of the text that was given.
-/

namespace HotComponents

open ModuleId

/-- A request is for the target that its identifier was read for. -/
theorem ModuleId.target_of_parse {o : Options} {id : String} {target : Target}
    {timestamp : Option Nat} {r : Request} (h : parse o id target timestamp = some r) :
    r.target = target := by
  rw [parse_eq_some_iff] at h
  simp only [ModuleId.read, bind, Except.bind, pure, Except.pure] at h
  -- Each guard that is not met ends the reading in an error.
  repeat' split at h
  all_goals first
    | cases h; rfl
    | cases h

namespace Session

open Workbench

variable {s s' start : Session} {i j n : Nat} {stage : Stage} {events : List Event}
  {id code : String} {target : Target} {r : Request}

/-- How far a task can have come that was started to transform a text, if what it obtains in the
end has a property. -/
inductive Transforms (o : Options) (id code : String) (target : Target)
    (Q : Request → Except BuildError Record → Prop) : Stage → Prop where
  | fresh : Transforms o id code target Q (.fresh (.transform id code target))
  | serving {r : Request} {call : Nat} {making : Option Compiling}
      (hparse : parse o id target = some r) :
      Transforms o id code target Q (.serving r code call making)
  | served {r : Request} {outcome : Except BuildError Record}
      (hparse : parse o id target = some r) (hQ : Q r outcome) :
      Transforms o id code target Q (.done (served o r outcome))
  /-- It is left to others. -/
  | passed : Transforms o id code target Q (.done (.content none))
  | cancelled : Transforms o id code target Q .cancelled

variable {Q : Request → Except BuildError Record → Prop}

/-- A transform asks for the main module of its identifier, compiled from its text. -/
theorem Transforms.asks {code' : String} (h : Transforms s.options id code target Q stage)
    (hasks : s.Asks stage r code') : parse s.options id target = some r ∧ code' = code := by
  cases h with
  | fresh =>
    cases hasks with
    | transform hparse _ => exact ⟨hparse, rfl⟩
  | serving hparse =>
    cases hasks with
    | waiting => exact ⟨hparse, rfl⟩
  | served => cases hasks
  | passed => cases hasks
  | cancelled => cases hasks

theorem transforms_turned {old : Stage} (hold : Transforms s.options id code target Q old)
    (hs : s.stage? i = some old) (hturned : Turned s i old s')
    (hQ : ∀ {r : Request} {outcome : Except BuildError Record}, parse s.options id target = some r →
      s.Obtains s'.compiler i old r code outcome → Q r outcome) :
    ∃ stage, s'.stage? i = some stage ∧ Transforms s.options id code target Q stage := by
  cases hturned with
  | @intro y new hworked hfits hown hnext =>
    refine ⟨new, hworked.stage?_setStage hs new, ?_⟩
    -- A transform asks for a main module, so its turns are those of a main module.
    cases hnext with
    | serving hasks =>
      obtain ⟨hparse, rfl⟩ := hold.asks hasks
      exact .serving hparse
    | served hasks hobtains =>
      obtain ⟨hparse, rfl⟩ := hold.asks hasks
      exact .served hparse (hQ hparse hobtains)
    | passed => exact .passed
    | cancelled => exact .cancelled
    | apart hapart =>
      cases hold <;> cases hapart

/-- What one event makes of a transform, and what it is given if the event is its own turn. -/
theorem transforms_apply {e : Event} (h : Attended s) (hs : s.stage? i = some stage)
    (ht : Transforms s.options id code target Q stage)
    (hQ : ∀ {r : Request} {outcome : Except BuildError Record}, e = .resume i →
      parse s.options id target = some r →
      s.Obtains (s.resume i).compiler i stage r code outcome → Q r outcome) :
    ∃ stage', (s.apply e).stage? i = some stage' ∧
      Transforms s.options id code target Q stage' := by
  by_cases hi : e.actor? = some i
  · cases e with
    | resume j =>
      cases hi
      change ∃ stage', (s.resume i).stage? i = some stage' ∧ _
      rcases turned_resume h i with ⟨old, hold, hturned⟩ | hsame
      · cases hs.symm.trans hold
        exact transforms_turned ht hs hturned (hQ rfl)
      · rw [hsame]
        exact ⟨stage, hs, ht⟩
    | cancel j =>
      cases hi
      change ∃ stage', (s.cancel i).stage? i = some stage' ∧ _
      rcases cancelled_cancel s i with ⟨old, y, _, hworked, _, hcancel⟩ | hsame
      · rw [hcancel]
        exact ⟨.cancelled, hworked.stage?_setStage hs _, .cancelled⟩
      · rw [hsame]
        exact ⟨stage, hs, ht⟩
    | _ => cases hi
  · -- It is somebody else's event.
    exact ⟨stage, stage?_apply_of_ne hs hi, ht⟩

/-- What a run makes of a transform, and what it is given in the turns that it takes. -/
theorem transforms_run (h : Attended s) (hs : s.stage? i = some stage)
    (ht : Transforms s.options id code target Q stage) (he : ∀ e ∈ events, e.putsNothing)
    (hQ : ∀ (ran rest : List Event) {old : Stage} {r : Request}
      {outcome : Except BuildError Record}, events = ran ++ .resume i :: rest →
      (s.run ran).stage? i = some old → parse s.options id target = some r →
      (s.run ran).Obtains ((s.run ran).resume i).compiler i old r code outcome → Q r outcome) :
    ∃ stage', (s.run events).stage? i = some stage' ∧
      Transforms s.options id code target Q stage' := by
  induction events generalizing s stage with
  | nil => exact ⟨stage, hs, ht⟩
  | cons e events ih =>
    rw [List.forall_mem_cons] at he
    obtain ⟨next, hnext, htnext⟩ := transforms_apply (e := e) h hs ht
      fun heq hparse hobtains => hQ [] events (by rw [heq]; rfl) hs hparse hobtains
    have hoptions := options_apply h e
    rw [← hoptions] at htnext ⊢
    -- A turn behind the first event is a turn of the whole run.
    refine ih (attended_apply h he.1) hnext htnext he.2 ?_
    intro ran rest old r outcome hevents hold hparse hobtains
    rw [hoptions] at hparse
    exact hQ (e :: ran) rest (congrArg (e :: ·) hevents) hold hparse hobtains

/-- In a run of events from a new session, what a task obtains is a record of the text it asks for,
and was produced in the run. -/
theorem produced_of_obtains {old : Stage} {record : Record} (hbench : start.bench = {})
    (htasks : start.tasks = []) (he : ∀ e ∈ events, e.putsNothing)
    (hobtains : (start.run events).Obtains ((start.run events).resume i).compiler i old r code
      (.ok record)) :
    record.digest = .of code r.target ∧
      Produced start (events ++ [.resume i]) r.key.slot record := by
  have hfilled := filled_run hbench htasks he
  generalize houtcome : (Except.ok record : Except BuildError Record) = outcome at hobtains
  -- Found, told of, or compiled in this very turn: each record has been produced by the run.
  cases hobtains with
  | found hready hdigest =>
    cases houtcome
    exact ⟨hdigest, (hfilled.ready hready).append _⟩
  | @told n t f hold hcall ha hdigest =>
    cases houtcome
    exact ⟨hdigest, (hfilled.heard n t _ _ hcall rfl ha f rfl).append _⟩
  | refused => cases houtcome
  | @compiled result hends =>
    cases result with
    | ok output =>
      cases houtcome
      refine ⟨rfl, events, [], i, _, output, rfl, hends, rfl, ?_⟩
      rw [options_run (attended_start htasks) he]
    | error failure => cases houtcome

/-- A transform is never answered with the output of another text. In every run of events from a new
session in which no record is put into the cache from outside, when a task that was started to
transform a text ends with code, then the code is the main module of a record that has the digest
of the text and the target, and that some task made in the run: in one of its turns it ended a
compile for the file of the identifier and the target, and the record is that of the output. -/
theorem transform_serves_its_own_text (start : Session) (before after : List Event) (i : Nat)
    (id code : String) (target : Target) (js : Code) :
    start.bench = {} → start.tasks = [] → (∀ e ∈ before ++ after, e.putsNothing) →
    (start.run before).stage? i = some (.fresh (.transform id code target)) →
    (start.run (before ++ after)).stage? i = some (.done (.content (some js))) →
    ∃ r record, parse start.options id target = some r ∧ js = mainCode start.options r record ∧
      record.digest = .of code target ∧
      Produced start (before ++ after) (r.file.components, target) record := by
  intro hbench htasks he hstart hend
  rw [List.forall_mem_append] at he
  have hattended := attended_run (attended_start htasks) he.1
  have hoptions := options_run (attended_start htasks) he.1
  let Q (r : Request) (outcome : Except BuildError Record) : Prop :=
    ∀ record, outcome = .ok record → record.digest = .of code target ∧
      Produced start (before ++ after) (r.file.components, target) record
  have hQ {ran rest : List Event} {old : Stage} {r : Request} {outcome : Except BuildError Record}
      (hafter : after = ran ++ .resume i :: rest)
      (hparse : parse (start.run before).options id target = some r)
      (hobtains : ((start.run before).run ran).Obtains
        (((start.run before).run ran).resume i).compiler i old r code outcome) : Q r outcome := by
    rintro record rfl
    rw [← run_append] at hobtains
    have hran : ∀ e ∈ before ++ ran, e.putsNothing := by
      rw [List.forall_mem_append]
      refine ⟨he.1, fun e hmem => he.2 e ?_⟩
      rw [hafter]
      exact List.mem_append_left _ hmem
    obtain ⟨hdigest, hproduced⟩ := produced_of_obtains hbench htasks hran hobtains
    have hmore := hproduced.append rest
    rw [List.append_assoc, List.append_assoc, List.singleton_append, ← hafter] at hmore
    rw [← target_of_parse hparse]
    exact ⟨hdigest, hmore⟩
  obtain ⟨stage, hstage, ht⟩ := transforms_run (Q := Q) hattended hstart .fresh he.2
    fun ran rest {_ _ _} hafter _ hparse hobtains => hQ hafter hparse hobtains
  rw [← run_append, hend] at hstage
  generalize hdone : Stage.done (.content (some js)) = last at hstage
  cases hstage
  cases ht with
  | @served r outcome hparse hobtained =>
    rw [hoptions] at hparse hdone
    cases outcome with
    | ok record =>
      cases hdone
      obtain ⟨hdigest, hproduced⟩ := hobtained record rfl
      exact ⟨r, record, hparse, rfl, hdigest, hproduced⟩
    | error e => cases hdone
  | _ => cases hdone

end Session

namespace Sample

/-- A compiler's rule that refuses one text. -/
def compile (input : CompileInput) : CompileResult :=
  if input.code = "bad" then .error { message := "unexpected end" }
  else .ok { js := ⟨input.code, none⟩ }

/-- A new session whose compiler follows that rule and pauses once. -/
def editor : Session where
  options := { root := ⟨"/"⟩ }
  compiler := { kind := .rule 1 compile }

/-- A task is started that transforms a text of one component. -/
def typed (text : String) : Session.Event := .start text (.transform "/A.svelte" text .dom)

end Sample

namespace Session

/-- Two tasks wait for a compile of one text: the one that has the same text is served with its
record, the other one compiles its own. -/
theorem transform_serves_its_own_text_joined :
    let before : List Event :=
      [Sample.typed "one", .resume 0, Sample.typed "two", .resume 1, Sample.typed "one"]
    let after : List Event := [.resume 2, .resume 0, .resume 1, .resume 2, .resume 1]
    let last := Sample.editor.run (before ++ after)
    last.stage? 1 = some (.done (.content (some ⟨"two", none⟩))) ∧
    last.stage? 2 = some (.done (.content (some ⟨"one", none⟩))) ∧
    ∃ r record, parse Sample.editor.options "/A.svelte" .dom = some r ∧
      ⟨"one", none⟩ = mainCode Sample.editor.options r record ∧
      record.digest = .of "one" .dom ∧
      Produced Sample.editor (before ++ after) (r.file.components, .dom) record := by
  intro before after last
  have hstart : (Sample.editor.run before).stage? 2 =
      some (.fresh (.transform "/A.svelte" "one" .dom)) := by decide +kernel
  have hends : last.stage? 1 = some (.done (.content (some ⟨"two", none⟩))) ∧
      last.stage? 2 = some (.done (.content (some ⟨"one", none⟩))) := by decide +kernel
  refine ⟨hends.1, hends.2, ?_⟩
  exact transform_serves_its_own_text Sample.editor before after 2 "/A.svelte" "one" .dom
    ⟨"one", none⟩ rfl rfl (by decide) hstart hends.2

end Session

end HotComponents
