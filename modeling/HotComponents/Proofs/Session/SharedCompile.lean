import HotComponents.Proofs.Cache.Shared
import HotComponents.Proofs.Session.Delivery
import HotComponents.Proofs.Session.Failure

/-!
# Tasks that share a compile

Tasks transform one text of a component, and tasks load the stylesheet of it for the same target.
Until the first transform takes a turn, nothing is known of the component, and a stylesheet is asked
for too early. That transform has the text compiled, and whoever takes a first turn after that
shares the compile: it waits while the compile is suspended, and is served from its record.

* `unread_load`, `unread_transform`: a first turn while the text has not been compiled;
* `sharing_resume`: a turn while the compile is shared;
* `unread_quiet`, `sharing_quiet`: what happens between the turns.
-/

namespace HotComponents

open ModuleId

/-! ## What is read -/

/-- A text of a component that is compiled by a compiler which follows a rule. -/
structure SharedText where
  options : Options
  key : Key
  code : String
  pauses : Nat
  compile : CompileInput → CompileResult
  /-- The compiles that were begun before. -/
  begun : List (Nat × CompileInput)
  /-- The number of the next compile. -/
  number : Nat

namespace SharedText

variable {a : SharedText}

/-- What the compiler is given for the text, where the file is spelled in a given way. -/
def input (a : SharedText) (file : FilePath) : CompileInput :=
  a.options.compileInput file a.code a.key.target

/-- The job is to transform the text, or to load the stylesheet of the component. -/
inductive Wants (a : SharedText) : Job → Prop where
  | transform {id : String} {r : Request} (hparse : parse a.options id a.key.target = some r)
      (hmain : r.route = .main) (hslot : r.key.slot = a.key.slot) :
      Wants a (.transform id a.code a.key.target)
  | load {sid : String} {q : Request} (hparse : parse a.options sid a.key.target = some q)
      (hstyle : q.route = .style) (hslot : q.key.slot = a.key.slot) :
      Wants a (.load sid a.key.target)

/-- The event starts no other job, and gives up none. -/
def Allows (a : SharedText) : Session.Event → Prop
  | .start _ job => a.Wants job
  | .cancel _ => False
  | e => e.isInside

theorem Allows.isInside {e : Session.Event} (h : a.Allows e) : e.isInside := by
  cases e <;> first | rfl | exact h

/-- The compiler succeeds with the text, however the file is spelled. -/
def Compiles (a : SharedText) : Prop :=
  ∀ file : FilePath, file.components = a.key.file.components →
    ∃ output, a.compile (a.input file) = .ok output

end SharedText

namespace Session

open Workbench

variable {a : SharedText} {s y : Session} {i j n t u : Nat} {job : Job} {old new stage : Stage}
  {r q : Request} {code : String} {f : Filed} {file : FilePath} {input : CompileInput}
  {record : Record} {key : Key} {wish : Intent} {w : Workbench} {e : Event}

/-! ## Turns of one task -/

theorem advanceServing_of_waiting (hcall : y.bench.calls[n]? = some ⟨r.key, servingIntent r code,
    .waiting t⟩) : y.advanceServing i r code n = y.setStage i (.serving r code n none) := by
  simp only [advanceServing, phase?, hcall, Option.map_some]

theorem advanceServing_of_returned (hcall : y.bench.calls[n]? = some ⟨r.key, servingIntent r code,
    .returned (.record f)⟩) : y.advanceServing i r code n =
      y.setStage i (.done (.content (some (mainCode y.options r f.record)))) := by
  simp only [advanceServing, phase?, hcall, Option.map_some, endServing, answer?,
    Option.bind_some, Call.answer?, Answer.map, endTask]

theorem advanceServing_of_computing {d : Option Filed} (hcall : y.bench.calls[n]? = some ⟨r.key,
    servingIntent r code, .computing t d⟩) : y.advanceServing i r code n =
      (y.startCompile r.file code r.target).1.progressServing i r code n
        (y.options.compileInput r.file code r.target)
        (y.compiler.start (y.options.compileInput r.file code r.target)).2 := by
  simp only [advanceServing, phase?, hcall, Option.map_some]
  rfl

theorem advanceStyling_of_waiting (hcall : y.bench.calls[n]? = some ⟨q.key, .settle, .waiting t⟩) :
    y.advanceStyling i q n = y.setStage i (.styling q n) := by
  simp only [advanceStyling, phase?, hcall, Option.map_some]

theorem advanceStyling_of_returned (hcall : y.bench.calls[n]? = some ⟨q.key, .settle,
    .returned (.record f)⟩) : y.advanceStyling i q n =
      (y.say (styleNotes q f.record)).setStage i (.done (.content f.record.css)) := by
  simp only [advanceStyling, phase?, hcall, Option.map_some, endTask]

theorem advanceStyling_of_absent (hcall : y.bench.calls[n]? = some ⟨q.key, .settle,
    .returned .absent⟩) : y.advanceStyling i q n =
      y.setStage i (.done (.refused (.styleTooEarly q.file))) := by
  simp only [advanceStyling, phase?, hcall, Option.map_some, endTask]

/-- A compile that ends in a record ends the task that it was for. -/
theorem finishServing_eq {d : Option Filed} {result : CompileResult}
    (hcall : y.bench.calls[n]? = some ⟨r.key, servingIntent r code, .computing t d⟩)
    (hjudge : y.options.judge input result = .ok record) :
    y.finishServing i r n input result =
      (((y.say (y.options.warningNotes input result)).act (.finish n (.ok record))).setStage i
        (.done (.content (some (mainCode y.options r record))))) := by
  have hanswer := answer?_finish_ok hcall rfl record
  simp only [Call.computedAnswer, servingIntent, Answer.map] at hanswer
  simp only [finishServing, judge, hjudge, Except.mapError, endServing, bench_act, bench_say,
    hanswer, endTask]
  rfl

/-! ## The turns that are left -/

/-- The turns that a task can still take. -/
def turnsLeft (pauses : Nat) : Stage → Nat
  | .fresh _ => pauses + 2
  | .serving _ _ _ (some ⟨_, .pausing left⟩) => left + 1
  | .done _ => 0
  | .cancelled => 0
  | _ => 1

/-- The task goes on to a stage with a property, and if it could go on, it has fewer turns left. -/
def GoesOn (s : Session) (i : Nat) (old : Stage) (pauses : Nat) (P : Stage → Prop) : Prop :=
  ∃ new, (s.resume i).stage? i = some new ∧ P new ∧
    (s.isReady old → turnsLeft pauses new < turnsLeft pauses old)

/-- In its turn a task comes to a session, and from there goes on to a stage. -/
structure TurnsTo (s : Session) (i : Nat) (y : Session) (new : Stage) : Prop where
  resume : s.resume i = y.setStage i new
  tasks : y.tasks = s.tasks

theorem TurnsTo.stage?_self (h : s.TurnsTo i y new) (hs : s.stage? i = some old) :
    (s.resume i).stage? i = some new := by
  rw [h.resume]
  refine stage?_setStage_self ?_ new
  rw [stage?, h.tasks]
  exact Option.isSome_of_eq_some hs

theorem TurnsTo.stage?_of_ne (h : s.TurnsTo i y new) (hij : i ≠ j) :
    (s.resume i).stage? j = s.stage? j := by
  rw [h.resume, stage?_setStage, if_neg hij, stage?, h.tasks]
  rfl

/-- A turn that leaves the task at a stage goes on, where fewer turns are left if the task was
ready. -/
theorem TurnsTo.goesOn {pauses : Nat} {P : Stage → Prop} (h : s.TurnsTo i y new)
    (hs : s.stage? i = some old) (hP : P new)
    (hfewer : s.isReady old → turnsLeft pauses new < turnsLeft pauses old) :
    s.GoesOn i old pauses P :=
  ⟨new, h.stage?_self hs, hP, hfewer⟩

theorem TurnsTo.sound (h : s.TurnsTo i y new) (hw : Sound s.bench) : Sound y.bench := by
  obtain ⟨moves, hmoves⟩ := bench_apply s (.resume i)
  change (s.resume i).bench = _ at hmoves
  rw [h.resume, bench_setStage] at hmoves
  exact hmoves ▸ sound_run hw moves

/-! ## Before the compile -/

/-- The text has not been given to the compiler, and nothing is known of the component. -/
structure Unread (a : SharedText) (s : Session) : Prop where
  options : s.options = a.options
  obeys : s.compiler.Obeys a.pauses a.compile
  inputs : s.compiler.inputs = a.begun
  started : s.compiler.started = a.number
  attended : Attended s
  sound : Sound s.bench
  vacant : s.bench.cache.content? a.key = none
  idle : ∀ (n : Nat) (call : Call), s.bench.calls[n]? = some call → call.hasEnded
  stages : ∀ {i : Nat} {stage : Stage}, s.stage? i = some stage →
    stage.hasEnded ∨ ∃ job, a.Wants job ∧ stage = .fresh job

/-- A task that loads the stylesheet before the compile is begun has come too early. -/
theorem unread_load {sid : String} (h : Unread a s)
    (hs : s.stage? i = some (.fresh (.load sid a.key.target)))
    (hparse : parse a.options sid a.key.target = some q) (hstyle : q.route = .style)
    (hslot : q.key.slot = a.key.slot) :
    s.GoesOn i (.fresh (.load sid a.key.target)) a.pauses
        (· = .done (.refused (.styleTooEarly q.file))) ∧
      Unread a (s.resume i) := by
  rw [← h.options] at hparse
  -- The slot is vacant, so the call that looks into it comes back with nothing in the same turn.
  have hvacant : s.bench.cache.content? q.key = none :=
    (Cache.content?_congr hslot).trans h.vacant
  generalize hy : (s.say (readingNotes s.options sid a.key.target)).call q.key .settle = called
  have hbench : called.1.bench = ⟨s.bench.cache, s.bench.calls ++
      [⟨q.key, .settle, .returned .absent⟩]⟩ := by
    rw [← hy]
    simp [call, Workbench.apply, Call.resume, Call.look, hvacant, update, Call.atPhase]
  have hcall : called.1.bench.calls[s.bench.calls.length]? =
      some ⟨q.key, .settle, .returned .absent⟩ := by
    rw [hbench, List.getElem?_concat_length]
  have hresume : s.resume i = called.1.advanceStyling i q s.bench.calls.length := by
    rw [← hy]
    exact resume_load hs hparse hstyle
  have hturn : s.TurnsTo i called.1 (.done (.refused (.styleTooEarly q.file))) := by
    refine ⟨hresume.trans (advanceStyling_of_absent hcall), ?_⟩
    rw [← hy]
    rfl
  have hcompiler : (s.resume i).compiler = s.compiler := by
    rw [hturn.resume, ← hy]
    rfl
  have hnow : (s.resume i).bench = called.1.bench := by rw [hturn.resume, bench_setStage]
  refine ⟨hturn.goesOn hs rfl fun _ => Nat.succ_pos _, ?_⟩
  constructor
  · -- The rest of the state is as it was, but for one ended call at the end of the bench.
    exact (options_apply h.attended (.resume i)).trans h.options
  · exact hcompiler ▸ h.obeys
  · exact hcompiler ▸ h.inputs
  · exact hcompiler ▸ h.started
  · exact attended_apply (e := .resume i) h.attended rfl
  · exact hnow ▸ hturn.sound h.sound
  · rw [hnow, hbench]
    exact h.vacant
  · intro n call hn
    rw [hnow, hbench] at hn
    rcases Nat.lt_or_ge n s.bench.calls.length with hlt | hge
    · rw [List.getElem?_append_left hlt] at hn
      exact h.idle n call hn
    · rw [List.getElem?_append_right hge, List.getElem?_singleton] at hn
      split at hn
      · cases hn
        rfl
      · cases hn
  · -- The task itself has ended; all others are where they were.
    intro j stage hj
    by_cases hij : i = j
    · subst hij
      cases (hturn.stage?_self hs).symm.trans hj
      exact .inl rfl
    · exact h.stages (hturn.stage?_of_ne hij ▸ hj)

/-! ## While the compile is shared -/

/-- How far a task for a job can have come while the compile is shared. -/
inductive Reads (a : SharedText) (file : FilePath) (record : Record) : Job → Stage → Prop where
  | fresh {job : Job} (hwants : a.Wants job) : Reads a file record job (.fresh job)
  /-- It transforms the text. If it is the task that has it compiled, the compile is suspended. -/
  | serving {id : String} {r : Request} {n : Nat} {making : Option Compiling}
      (hparse : parse a.options id a.key.target = some r) (hslot : r.key.slot = a.key.slot)
      (hmaking : ∀ c, making = some c →
        c.input = a.input file ∧ ∃ left, c.suspension = .pausing left ∧ left ≤ a.pauses) :
      Reads a file record (.transform id a.code a.key.target) (.serving r a.code n making)
  | served {id : String} {r : Request} (hparse : parse a.options id a.key.target = some r) :
      Reads a file record (.transform id a.code a.key.target)
        (.done (.content (some (mainCode a.options r record))))
  | styling {sid : String} {q : Request} {n : Nat} (hslot : q.key.slot = a.key.slot) :
      Reads a file record (.load sid a.key.target) (.styling q n)
  | styled {sid : String} :
      Reads a file record (.load sid a.key.target) (.done (.content record.css))

/-- The text has been given to the compiler, once. Whoever is under way shares the compile; while
that is under way, some task is suspended on it. -/
structure Sharing (a : SharedText) (file : FilePath) (record : Record) (t : Nat) (s : Session) :
    Prop where
  options : s.options = a.options
  obeys : s.compiler.Obeys a.pauses a.compile
  inputs : s.compiler.inputs = a.begun ++ [(a.number, a.input file)]
  made : a.options.judge (a.input file) (a.compile (a.input file)) = .ok record
  attended : Attended s
  sound : Sound s.bench
  shared : Shared a.key t ⟨record, some t⟩ s.bench
  stages : ∀ {i : Nat} {stage : Stage}, s.stage? i = some stage →
    stage.hasEnded ∨ ∃ job, Reads a file record job stage
  led : s.bench.cache.content? a.key = some (.pending t none) →
    ∃ i stage, s.stage? i = some stage ∧ stage.compiling?.isSome

/-- A task that has not ended has a turn left. -/
theorem Reads.turnsLeft_pos (h : Reads a file record job stage) (hopen : stage.hasEnded = false) :
    0 < turnsLeft a.pauses stage := by
  cases h with
  | fresh => exact Nat.succ_pos _
  | @serving id r n making hparse hslot hmaking =>
    cases making with
    | none => exact Nat.one_pos
    | some c =>
      obtain ⟨_, left, hleft, _⟩ := hmaking c rfl
      obtain ⟨input, suspension⟩ := c
      cases hleft
      exact Nat.succ_pos left
  | styling => exact Nat.one_pos
  | served => cases hopen
  | styled => cases hopen

theorem digest_of_judge {o : Options} {result : CompileResult}
    (h : o.judge input result = .ok record) : record.digest = .of input.code input.target := by
  unfold Options.judge at h
  split at h
  · cases h
    rfl
  · cases h

/-- A call for the main module asks for a record with the digest of the one that is made. -/
theorem servingIntent_eq
    (hmade : a.options.judge (a.input file) (a.compile (a.input file)) = .ok record)
    (hslot : r.key.slot = a.key.slot) :
    servingIntent r a.code = .obtain (.matching record.digest) := by
  have htarget : r.target = a.key.target := congrArg Prod.snd hslot
  rw [digest_of_judge hmade, servingIntent, htarget]
  rfl

/-- What a turn leaves a session in which the compile is shared, be it the first such turn. -/
theorem sharing_of_turn (hattended : Attended s) (hw : Sound s.bench)
    (hs : s.stage? i = some old) (hturn : s.TurnsTo i y new) (hoptions : s.options = a.options)
    (hobeys : y.compiler.Obeys a.pauses a.compile)
    (hinputs : y.compiler.inputs = a.begun ++ [(a.number, a.input file)])
    (hmade : a.options.judge (a.input file) (a.compile (a.input file)) = .ok record)
    (hshared : Shared a.key t ⟨record, some t⟩ y.bench) (hreads : Reads a file record job new)
    (hstages : ∀ {j : Nat} {stage : Stage}, i ≠ j → s.stage? j = some stage →
      stage.hasEnded ∨ ∃ job, Reads a file record job stage)
    (hled : y.bench.cache.content? a.key = some (.pending t none) → new.compiling?.isSome ∨
      ∃ j stage, i ≠ j ∧ s.stage? j = some stage ∧ stage.compiling?.isSome) :
    Sharing a file record t (s.resume i) := by
  have hbench : (s.resume i).bench = y.bench := by rw [hturn.resume, bench_setStage]
  have hcompiler : (s.resume i).compiler = y.compiler := by rw [hturn.resume]; rfl
  constructor
  · exact (options_apply hattended (.resume i)).trans hoptions
  · exact hcompiler ▸ hobeys
  · exact hcompiler ▸ hinputs
  · exact hmade
  · exact attended_apply (e := .resume i) hattended rfl
  · exact hbench ▸ hturn.sound hw
  · exact hbench ▸ hshared
  · -- The task that took the turn is at its new stage, and the others are at their old ones.
    intro j stage hj
    by_cases hij : i = j
    · subst hij
      cases (hturn.stage?_self hs).symm.trans hj
      exact .inr ⟨job, hreads⟩
    · exact hstages hij (hturn.stage?_of_ne hij ▸ hj)
  · -- Whoever leads the compile is this task or another one, and the other has not moved.
    intro hpending
    rw [hbench] at hpending
    rcases hled hpending with hmine | ⟨j, stage, hij, hj, hc⟩
    · exact ⟨i, new, hturn.stage?_self hs, hmine⟩
    · exact ⟨j, stage, (hturn.stage?_of_ne hij).trans hj, hc⟩

/-- A turn in which a task begins no compile, and neither ends the one that is shared. -/
theorem Sharing.next (h : Sharing a file record t s) (hs : s.stage? i = some old)
    (hidle : old.compiling? = none) (hturn : s.TurnsTo i y new)
    (hcompiler : y.compiler = s.compiler) (hshared : Shared a.key t ⟨record, some t⟩ y.bench)
    (hcache : y.bench.cache = s.bench.cache) (hreads : Reads a file record job new)
    (hfewer : s.isReady old → turnsLeft a.pauses new < turnsLeft a.pauses old) :
    s.GoesOn i old a.pauses (Reads a file record job) ∧ Sharing a file record t (s.resume i) := by
  refine ⟨hturn.goesOn hs hreads hfewer, ?_⟩
  refine sharing_of_turn h.attended h.sound hs hturn h.options (hcompiler ▸ h.obeys)
    (hcompiler ▸ h.inputs) h.made hshared hreads (fun _ hj => h.stages hj) fun hpending => .inr ?_
  -- The task that is suspended on the compile is another one.
  rw [hcache] at hpending
  obtain ⟨j, stage, hj, hc⟩ := h.led hpending
  refine ⟨j, stage, ?_, hj, hc⟩
  rintro rfl
  cases hs.symm.trans hj
  rw [hidle] at hc
  cases hc

/-- What a call comes to that shares the compile: it waits, or is given the record. -/
def Meets (k : Key) (t : Nat) (f : Filed) (w : Workbench) (p : Phase) : Prop :=
  w.cache.content? k = some (.pending t none) ∧ p = .waiting t ∨
    w.cache.content? k = some (.ready f) ∧ p = .returned (.record f)

/-- What a task that makes a call then finds. -/
theorem shares_call {k : Key} (h : Shared k t f y.bench) (hslot : key.slot = k.slot)
    (hwish : wish = .settle ∨ wish = .obtain (.matching f.record.digest)) :
    ∃ p, (y.call key wish).1.bench.calls[y.bench.calls.length]? = some ⟨key, wish, p⟩ ∧
      Shared k t f (y.call key wish).1.bench ∧
      (y.call key wish).1.bench.cache = y.bench.cache ∧ Meets k t f y.bench p := by
  have hmade := shared_make h hslot hwish
  have hcall : (y.bench.apply (.make key wish)).calls[y.bench.calls.length]? =
      some ⟨key, wish, .arriving⟩ := by simp [Workbench.apply]
  obtain ⟨p, happly, hp⟩ := shares_resume hmade hcall (.inl rfl)
  have hbench : (y.call key wish).1.bench =
      (y.bench.apply (.make key wish)).apply (.resume y.bench.calls.length) := rfl
  refine ⟨p, ?_, ?_, ?_, hp⟩
  · rw [hbench, happly, calls_update hcall, if_pos rfl]
    rfl
  · rw [hbench]
    exact shared_resume hmade hcall (.inl rfl)
  · rw [hbench, happly]
    rfl

/-- What a task that waits finds when it is resumed. -/
theorem shares_act {k : Key} (h : Shared k t f s.bench)
    (hcall : s.bench.calls[n]? = some ⟨key, wish, .waiting u⟩) :
    ∃ p, (s.act (.resume n)).bench.calls[n]? = some ⟨key, wish, p⟩ ∧
      Shared k t f (s.act (.resume n)).bench ∧
      (s.act (.resume n)).bench.cache = s.bench.cache ∧ Meets k t f s.bench p := by
  obtain ⟨p, happly, hp⟩ := shares_resume h hcall (.inr ⟨u, rfl⟩)
  refine ⟨p, ?_, shared_resume h hcall (.inr ⟨u, rfl⟩), ?_, hp⟩
  · rw [bench_act, happly, calls_update hcall, if_pos rfl]
    rfl
  · rw [bench_act, happly]
    rfl

/-- A task whose call waits for the compile is ready only once the compile has ended. -/
theorem Sharing.isRunnable_iff (h : Sharing a file record t s)
    (hcall : s.bench.calls[n]? = some ⟨key, wish, .waiting u⟩) :
    s.bench.isRunnable n ↔ s.bench.cache.content? a.key ≠ some (.pending t none) := by
  obtain rfl := h.shared.waits hcall rfl
  have hrunnable : s.bench.isRunnable n = (s.bench.cache.announcement? u).isSome := by
    simp [isRunnable, hcall, Call.isRunnable]
  rw [hrunnable]
  rcases h.shared.slot with ⟨hpending, hnone⟩ | ⟨hready, hsome⟩
  · simp [hpending, hnone]
  · simp [hready, hsome]

/-- A turn in which a task serves or loads the module, behind what its call has come to. -/
theorem Sharing.given (h : Sharing a file record t s) (hs : s.stage? i = some old)
    (hopen : old.hasEnded = false) (hidle : old.compiling? = none) {p : Phase} (waits : Stage)
    (result : TaskResult) (hshared : Shared a.key t ⟨record, some t⟩ w)
    (hcache : w.cache = s.bench.cache) (hp : Meets a.key t ⟨record, some t⟩ s.bench p)
    (hold : Reads a file record job old) (hwaiting : Reads a file record job waits)
    (hended : Reads a file record job (.done result))
    (hwaits : p = .waiting t → ∃ y, s.TurnsTo i y waits ∧ y.compiler = s.compiler ∧ y.bench = w)
    (hends : p = .returned (.record ⟨record, some t⟩) →
      ∃ y, s.TurnsTo i y (.done result) ∧ y.compiler = s.compiler ∧ y.bench = w)
    (hfewer : turnsLeft a.pauses waits < turnsLeft a.pauses old ∨
      (s.bench.cache.content? a.key = some (.pending t none) → s.isReady old = false)) :
    s.GoesOn i old a.pauses (Reads a file record job) ∧ Sharing a file record t (s.resume i) := by
  -- The call either waits for the shared compile or is given its record at once.
  rcases hp with ⟨hpending, hp⟩ | ⟨hready, hp⟩
  · obtain ⟨y, hturn, hcompiler, rfl⟩ := hwaits hp
    refine h.next hs hidle hturn hcompiler hshared hcache hwaiting fun hready => ?_
    rcases hfewer with hlt | hblocked
    · exact hlt
    · rw [hblocked hpending] at hready
      cases hready
  · obtain ⟨y, hturn, hcompiler, rfl⟩ := hends hp
    exact h.next hs hidle hturn hcompiler hshared hcache hended fun _ => hold.turnsLeft_pos hopen

/-- The turn of the task that is suspended on the compile. -/
theorem sharing_progress {c : Compiling} (h : Sharing a file record t s)
    (hs : s.stage? i = some (.serving r a.code n (some c)))
    (hreads : Reads a file record job (.serving r a.code n (some c))) :
    s.GoesOn i (.serving r a.code n (some c)) a.pauses (Reads a file record job) ∧
      Sharing a file record t (s.resume i) := by
  obtain ⟨⟨u, d, hcall⟩, _⟩ := h.attended.fits hs
  cases hreads with
  | @serving id r n making hparse hslot hmaking =>
  obtain ⟨hinput, left, hleft, hle⟩ := hmaking c rfl
  obtain ⟨input, suspension⟩ := c
  cases hinput
  cases hleft
  obtain ⟨rfl, hpending⟩ := h.shared.leads hcall rfl
  have hresume : s.resume i = s.progressServing i r a.code n (a.input file)
      (s.compiler.resume (a.input file) (.pausing left)) := resume_eq hs
  -- The compile is suspended again while it has more than one pause left, and ends with the last.
  by_cases hmore : 1 < left
  · rw [Compiler.resume, if_pos hmore] at hresume
    have hturn : s.TurnsTo i s (.serving r a.code n (some ⟨a.input file, .pausing (left - 1)⟩)) :=
      ⟨hresume, rfl⟩
    have hnext : Reads a file record (.transform id a.code a.key.target)
        (.serving r a.code n (some ⟨a.input file, .pausing (left - 1)⟩)) := by
      refine .serving hparse hslot ?_
      rintro _ ⟨⟩
      exact ⟨rfl, left - 1, rfl, by omega⟩
    refine ⟨hturn.goesOn hs hnext fun _ => ?_, ?_⟩
    · change left - 1 + 1 < left + 1
      omega
    · exact sharing_of_turn h.attended h.sound hs hturn h.options h.obeys h.inputs h.made h.shared
        hnext (fun _ hj => h.stages hj) fun _ => .inl rfl
  · have hjudge : s.options.judge (a.input file) (a.compile (a.input file)) = .ok record := by
      rw [h.options]
      exact h.made
    have hended : s.compiler.resume (a.input file) (.pausing left) =
        .ended (a.compile (a.input file)) := by
      rw [Compiler.resume, if_neg hmore, h.obeys.kind]
    rw [hended, progressServing, finishServing_eq hcall hjudge, h.options] at hresume
    obtain ⟨hshared, hready⟩ := shared_land h.sound h.shared rfl hcall rfl
    have hturn : s.TurnsTo i ((s.say (a.options.warningNotes (a.input file)
        (a.compile (a.input file)))).act (.finish n (.ok record)))
        (.done (.content (some (mainCode a.options r record)))) := ⟨hresume, rfl⟩
    -- The slot holds the record now, so nobody has to lead a compile any more.
    refine ⟨hturn.goesOn hs (.served hparse) fun _ => Nat.succ_pos _, ?_⟩
    refine sharing_of_turn h.attended h.sound hs hturn h.options h.obeys h.inputs h.made hshared
      (.served hparse) (fun _ hj => h.stages hj) fun hpending' => ?_
    cases hready.symm.trans hpending'

/-- What one turn makes of a session in which a compile is shared. -/
theorem sharing_resume (h : Sharing a file record t s) (hs : s.stage? i = some old)
    (hreads : Reads a file record job old) :
    s.GoesOn i old a.pauses (Reads a file record job) ∧ Sharing a file record t (s.resume i) := by
  -- Who waits for the shared compile is not ready before the compile has ended.
  have hblocked {n u : Nat} {key : Key} {wish : Intent}
      (hcall : s.bench.calls[n]? = some ⟨key, wish, .waiting u⟩)
      (hpending : s.bench.cache.content? a.key = some (.pending t none)) :
      s.bench.isRunnable n = false := by
    rw [← Bool.not_eq_true, h.isRunnable_iff hcall]
    simpa using hpending
  have hdone (result : TaskResult) (hs : s.stage? i = some (.done result))
      (hreads : Reads a file record job (.done result)) :
      s.GoesOn i (.done result) a.pauses (Reads a file record job) ∧
        Sharing a file record t (s.resume i) := by
    have hstays := resume_of_hasEnded hs rfl
    refine ⟨⟨_, ?_, hreads, nofun⟩, ?_⟩
    · rw [hstays]
      exact hs
    · rw [hstays]
      exact h
  cases hreads with
  | served hparse => exact hdone _ hs (.served hparse)
  | styled => exact hdone _ hs .styled
  | fresh hwants =>
    cases hwants with
    | @transform id r hparse hmain hslot =>
      have hparse' := hparse
      rw [← h.options] at hparse'
      -- The first turn of a transform: it joins the compile or finds the record.
      obtain ⟨p, hcall, hshared, hcache, hp⟩ := shares_call
        (y := s.say (readingNotes s.options id a.key.target)) h.shared hslot
        (.inr (servingIntent_eq h.made hslot))
      have hresume := resume_transform hs hparse' hmain
      refine h.given hs rfl rfl (.serving r a.code s.bench.calls.length none)
        (.content (some (mainCode a.options r record))) hshared hcache hp
        (.fresh (.transform hparse hmain hslot)) (.serving hparse hslot nofun) (.served hparse)
        ?_ ?_ (.inl ?_)
      · rintro rfl
        exact ⟨_, ⟨hresume.trans (advanceServing_of_waiting hcall), rfl⟩, rfl, rfl⟩
      · rintro rfl
        rw [← h.options]
        exact ⟨_, ⟨hresume.trans (advanceServing_of_returned hcall), rfl⟩, rfl, rfl⟩
      · exact Nat.lt_of_lt_of_le Nat.one_lt_two (Nat.le_add_left _ _)
    | @load sid q hparse hstyle hslot =>
      have hparse' := hparse
      rw [← h.options] at hparse'
      obtain ⟨p, hcall, hshared, hcache, hp⟩ := shares_call
        (y := s.say (readingNotes s.options sid a.key.target)) h.shared hslot (.inl rfl)
      have hresume := resume_load hs hparse' hstyle
      refine h.given hs rfl rfl (.styling q s.bench.calls.length) (.content record.css) hshared
        hcache hp (.fresh (.load hparse hstyle hslot)) (.styling hslot) .styled ?_ ?_ (.inl ?_)
      · rintro rfl
        exact ⟨_, ⟨hresume.trans (advanceStyling_of_waiting hcall), rfl⟩, rfl, rfl⟩
      · rintro rfl
        exact ⟨_, ⟨hresume.trans (advanceStyling_of_returned hcall), rfl⟩, rfl, rfl⟩
      · exact Nat.lt_of_lt_of_le Nat.one_lt_two (Nat.le_add_left _ _)
  | @styling sid q n hslot =>
    obtain ⟨u, hwaits⟩ := h.attended.fits hs
    obtain ⟨p, hcall, hshared, hcache, hp⟩ := shares_act h.shared hwaits
    refine h.given hs rfl rfl (.styling q n) (.content record.css) hshared hcache hp
      (.styling hslot) (.styling hslot) .styled ?_ ?_ (.inr (hblocked hwaits))
    · rintro rfl
      exact ⟨_, ⟨(resume_eq hs).trans (advanceStyling_of_waiting hcall), rfl⟩, rfl, rfl⟩
    · rintro rfl
      exact ⟨_, ⟨(resume_eq hs).trans (advanceStyling_of_returned hcall), rfl⟩, rfl, rfl⟩
  | @serving id r n making hparse hslot hmaking =>
    cases making with
    | some c => exact sharing_progress h hs (.serving hparse hslot hmaking)
    | none =>
      obtain ⟨u, hwaits⟩ := h.attended.fits hs
      obtain ⟨p, hcall, hshared, hcache, hp⟩ := shares_act h.shared hwaits
      refine h.given hs rfl rfl (.serving r a.code n none)
        (.content (some (mainCode a.options r record))) hshared hcache hp
        (.serving hparse hslot nofun) (.serving hparse hslot nofun) (.served hparse) ?_ ?_
        (.inr (hblocked hwaits))
      · rintro rfl
        exact ⟨_, ⟨(resume_eq hs).trans (advanceServing_of_waiting hcall), rfl⟩, rfl, rfl⟩
      · rintro rfl
        rw [← h.options]
        exact ⟨_, ⟨(resume_eq hs).trans (advanceServing_of_returned hcall), rfl⟩, rfl, rfl⟩

/-! ## The turn in which the compile is begun -/

/-- The first transform that takes a turn begins the compile, which ends at once or is suspended. -/
theorem resume_of_unread {id : String} (h : Unread a s)
    (hs : s.stage? i = some (.fresh (.transform id a.code a.key.target)))
    (hparse : parse a.options id a.key.target = some r) (hmain : r.route = .main)
    (hslot : r.key.slot = a.key.slot)
    (hmade : a.options.judge (a.input r.file) (a.compile (a.input r.file)) = .ok record) :
    let t := s.bench.cache.nextTicket
    let n := s.bench.calls.length
    ∃ y : Session, y.tasks = s.tasks ∧ y.options = a.options ∧
      y.compiler.Obeys a.pauses a.compile ∧
      y.compiler.inputs = a.begun ++ [(a.number, a.input r.file)] ∧ Sound y.bench ∧
      y.bench.calls[n]? = some ⟨r.key, servingIntent r a.code, .computing t none⟩ ∧
      Shared a.key t ⟨record, some t⟩ y.bench ∧
      s.resume i = y.progressServing i r a.code n (a.input r.file)
        (if a.pauses = 0 then .ended (a.compile (a.input r.file))
          else .suspended (.pausing a.pauses)) := by
  intro t n
  have htarget : r.target = a.key.target := congrArg Prod.snd hslot
  rw [← h.options] at hparse
  have hresume := resume_transform hs hparse hmain
  obtain ⟨hcall, hshared⟩ := shared_of_vacant h.sound h.vacant h.idle hslot ⟨record, some t⟩
  simp only [← servingIntent_eq hmade hslot] at hcall hshared
  set y := ((s.say (readingNotes s.options id a.key.target)).call r.key
    (servingIntent r a.code)).1
  have hinput : y.options.compileInput r.file a.code r.target = a.input r.file := by
    rw [htarget]
    exact congrArg (fun o : Options => o.compileInput r.file a.code a.key.target) h.options
  -- The call leads, so the turn begins the compile, and it is the next one by number.
  have hcompiler : (y.startCompile r.file a.code r.target).1.compiler =
      (s.compiler.start (a.input r.file)).1 := by
    rw [← hinput]
    rfl
  have hstart : (s.compiler.start (a.input r.file)).2 =
      if a.pauses = 0 then .ended (a.compile (a.input r.file))
      else .suspended (.pausing a.pauses) := by
    simp only [Compiler.start, h.obeys.kind]
  refine ⟨(y.startCompile r.file a.code r.target).1, rfl, h.options, ?_, ?_,
    sound_run h.sound [.make _ _, .resume _], hcall, hshared, ?_⟩
  · rw [hcompiler]
    exact h.obeys.start _
  · rw [hcompiler, Compiler.inputs_start, h.inputs, h.started]
  · rw [hresume, ← hstart, ← hinput]
    exact advanceServing_of_computing hcall

/-- The first transform that takes a turn has the text compiled, and the compile is shared from then
on. -/
theorem unread_transform {id : String} (h : Unread a s) (hcompiles : a.Compiles)
    (hs : s.stage? i = some (.fresh (.transform id a.code a.key.target)))
    (hparse : parse a.options id a.key.target = some r) (hmain : r.route = .main)
    (hslot : r.key.slot = a.key.slot) :
    ∃ output, a.compile (a.input r.file) = .ok output ∧
      let record := a.options.toRecord (a.input r.file) output
      s.GoesOn i (.fresh (.transform id a.code a.key.target)) a.pauses
          (Reads a r.file record (.transform id a.code a.key.target)) ∧
        Sharing a r.file record s.bench.cache.nextTicket (s.resume i) := by
  obtain ⟨output, houtput⟩ := hcompiles r.file (congrArg Prod.fst hslot)
  refine ⟨output, houtput, ?_⟩
  intro record
  have hmade : a.options.judge (a.input r.file) (a.compile (a.input r.file)) = .ok record := by
    rw [houtput]
    rfl
  obtain ⟨y, htasks, hoptions, hobeys, hinputs, hsound, hcall, hshared, hadvance⟩ :=
    resume_of_unread h hs hparse hmain hslot hmade
  have hstages {j : Nat} {stage : Stage} (hj : s.stage? j = some stage) :
      stage.hasEnded ∨ ∃ job, Reads a r.file record job stage := by
    refine (h.stages hj).imp_right ?_
    rintro ⟨job, hwants, rfl⟩
    exact ⟨job, .fresh hwants⟩
  by_cases hpauses : a.pauses = 0
  · -- The compile ends at once.
    have hjudge : y.options.judge (a.input r.file) (a.compile (a.input r.file)) = .ok record := by
      rw [hoptions]
      exact hmade
    rw [if_pos hpauses, progressServing, finishServing_eq hcall hjudge, hoptions] at hadvance
    obtain ⟨hshared', hready⟩ := shared_land hsound hshared rfl hcall rfl
    have hreads : Reads a r.file record (.transform id a.code a.key.target)
        (.done (.content (some (mainCode a.options r record)))) := .served hparse
    have hturn : s.TurnsTo i _ (.done (.content (some (mainCode a.options r record)))) :=
      ⟨hadvance, htasks⟩
    refine ⟨hturn.goesOn hs hreads fun _ => Nat.succ_pos _, ?_⟩
    refine sharing_of_turn h.attended h.sound hs hturn h.options hobeys hinputs hmade hshared'
      hreads (fun _ hj => hstages hj) fun hpending => ?_
    cases hready.symm.trans hpending
  · rw [if_neg hpauses, progressServing] at hadvance
    have hreads : Reads a r.file record (.transform id a.code a.key.target)
        (.serving r a.code s.bench.calls.length (some ⟨a.input r.file, .pausing a.pauses⟩)) := by
      refine .serving hparse hslot ?_
      rintro _ ⟨⟩
      exact ⟨rfl, a.pauses, rfl, Nat.le_refl _⟩
    have hturn : s.TurnsTo i _ (.serving r a.code s.bench.calls.length
        (some ⟨a.input r.file, .pausing a.pauses⟩)) := ⟨hadvance, htasks⟩
    refine ⟨hturn.goesOn hs hreads fun _ => Nat.lt_succ_self _, ?_⟩
    exact sharing_of_turn h.attended h.sound hs hturn h.options hobeys hinputs hmade hshared hreads
      (fun _ hj => hstages hj) fun _ => .inl rfl

/-! ## Between the turns -/

/-- What happens besides the turns of tasks leaves the workbench and the begun compiles, and moves
no task; it can start another one. -/
theorem quiet_apply (hobeys : s.compiler.Obeys a.pauses a.compile) (he : a.Allows e)
    (hquiet : ∀ i, e ≠ .resume i) :
    (s.apply e).bench = s.bench ∧ (s.apply e).compiler.inputs = s.compiler.inputs ∧
      (s.apply e).compiler.started = s.compiler.started ∧
      (∀ {j : Nat} {stage : Stage}, s.stage? j = some stage →
        (s.apply e).stage? j = some stage) ∧
      ∀ {j : Nat} {stage : Stage}, (s.apply e).stage? j = some stage →
        s.stage? j = some stage ∨ ∃ job, a.Wants job ∧ stage = .fresh job := by
  have hstays {j : Nat} {stage : Stage} (hj : s.stage? j = some stage) :
      (s.apply e).stage? j = some stage := by
    refine stage?_apply_of_ne hj ?_
    -- No event here is a turn; a delivery finds nobody waiting, since the compiler follows a rule.
    cases e with
    | resume i => exact absurd rfl (hquiet i)
    | cancel i => exact absurd he id
    | _ =>
      intro hactor
      cases hactor
  cases e with
  | start name job =>
    refine ⟨rfl, rfl, rfl, hstays, fun hj => (stage?_startTask hj).imp_right ?_⟩
    rintro ⟨_, rfl⟩
    exact ⟨job, he, rfl⟩
  | resume i => exact absurd rfl (hquiet i)
  | cancel i => exact absurd he id
  | deliver number result =>
    have happly : s.apply (.deliver number result) = s := by
      simp only [apply, hobeys.deliver, Option.getD_none]
    rw [happly]
    exact ⟨rfl, rfl, rfl, id, .inl⟩
  | resolve id importer target =>
    obtain ⟨resolver, journal, happly⟩ := apply_resolve s id importer target
    rw [happly]
    exact ⟨rfl, rfl, rfl, fun hj => hj, .inl⟩
  | close => cases he
  | edit m => cases he
  | _ => exact ⟨rfl, rfl, rfl, hstays, .inl⟩

/-- What happens between the turns leaves the text unread. -/
theorem unread_quiet (h : Unread a s) (he : a.Allows e) (hquiet : ∀ i, e ≠ .resume i) :
    Unread a (s.apply e) := by
  obtain ⟨hbench, hinputs, hstarted, _, hstages⟩ := quiet_apply h.obeys he hquiet
  constructor
  · exact (options_apply h.attended e).trans h.options
  · exact obeys_apply h.attended h.obeys e
  · exact hinputs.trans h.inputs
  · exact hstarted.trans h.started
  · exact attended_apply h.attended (Event.putsNothing_of_isInside he.isInside)
  · exact hbench ▸ h.sound
  · exact hbench ▸ h.vacant
  · exact hbench ▸ h.idle
  · intro j stage hj
    -- A new task is fresh, with one of the jobs that are allowed.
    rcases hstages hj with hold | hnew
    · exact h.stages hold
    · exact .inr hnew

/-- What happens between the turns leaves the compile shared. -/
theorem sharing_quiet (h : Sharing a file record t s) (he : a.Allows e)
    (hquiet : ∀ i, e ≠ .resume i) : Sharing a file record t (s.apply e) := by
  obtain ⟨hbench, hinputs, _, hstays, hstages⟩ := quiet_apply h.obeys he hquiet
  constructor
  · exact (options_apply h.attended e).trans h.options
  · exact obeys_apply h.attended h.obeys e
  · exact hinputs.trans h.inputs
  · exact h.made
  · exact attended_apply h.attended (Event.putsNothing_of_isInside he.isInside)
  · exact hbench ▸ h.sound
  · exact hbench ▸ h.shared
  · intro j stage hj
    rcases hstages hj with hold | ⟨job, hwants, rfl⟩
    · exact h.stages hold
    · exact .inr ⟨job, .fresh hwants⟩
  · intro hpending
    rw [hbench] at hpending
    -- The leader takes no turn, so it still has the compile under way.
    obtain ⟨j, stage, hj, hc⟩ := h.led hpending
    exact ⟨j, stage, hstays hj, hc⟩

end Session

end HotComponents
