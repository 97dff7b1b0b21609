import HotComponents.Proofs.Cache.Provenance
import HotComponents.Proofs.Session.Moves

/-!
# Turns of a task

A task that is suspended has a call of its own on the cache, and that has come as far as the stage
of the task says. In a turn the task moves this call or one that it makes now, ends a compile or
none, drops records for the server, and goes to its next stage.

* `turned_resumeFrom`: what a turn does to the workbench, and the stage it leads to;
* `cancelled_cancel`: what becomes of a task that is given up.
-/

namespace HotComponents

open ModuleId

/-- The answer to a call that obtains a record and computes. -/
def Answer.ofOutcome : Except BuildError Record → Answer
  | .ok r => .record r
  | .error e => .failure e

namespace Workbench

variable {w : Workbench} {n t : Nat} {key : Key} {d : Option Filed}

/-- Call number `n` was made for a key with an intent, and waits. -/
def Waits (w : Workbench) (n : Nat) (key : Key) (intent : Intent) : Prop :=
  ∃ t, w.calls[n]? = some ⟨key, intent, .waiting t⟩

/-- Call number `n` was made for a key with an intent, and computes. -/
def Computes (w : Workbench) (n : Nat) (key : Key) (intent : Intent) : Prop :=
  ∃ t d, w.calls[n]? = some ⟨key, intent, .computing t d⟩

/-- What a call returns when its compute succeeds. -/
theorem answer?_finish_ok {call : Call} (hcall : w.calls[n]? = some call)
    (hphase : call.phase = .computing t d) (record : Record) :
    (w.apply (.finish n (.ok record))).answer? n =
      some ((call.computedAnswer d ⟨record, some t⟩).map Filed.record) := by
  simp [answer?, apply, hcall, Call.finish, hphase, calls_update hcall, Call.answer?]

/-- What a call returns when its compute fails. -/
theorem answer?_finish_error {call : Call} (hcall : w.calls[n]? = some call)
    (hphase : call.phase = .computing t d) (e : BuildError) :
    (w.apply (.finish n (.error e))).answer? n = some (.failure e) := by
  simp [answer?, apply, hcall, Call.finish, hphase, calls_update hcall, Call.answer?, Answer.map]

end Workbench

namespace Stage

/-- The compile that a task is suspended on. -/
def compiling? : Stage → Option Compiling
  | serving _ _ _ making => making
  | updating _ _ _ (some (.compiling c)) => some c
  | _ => none

/-- The call of a task has come as far as its stage says: it computes if the task makes a record,
and waits otherwise. -/
def Fits (o : Options) (w : Workbench) : Stage → Prop
  | serving r code call none => w.Waits call r.key (Session.servingIntent r code)
  | serving r code call (some c) =>
    w.Computes call r.key (Session.servingIntent r code) ∧
      c.input = o.compileInput r.file code r.target
  | styling r call => w.Waits call r.key .settle
  | updating _ component call none => w.Waits call ⟨component, .dom⟩ .recompute
  | updating _ component call (some making) =>
    w.Computes call ⟨component, .dom⟩ .recompute ∧
      ∀ c, making = .compiling c → ∃ code, c.input = o.compileInput component code .dom
  | _ => True

/-- The task has not ended, and is for something else than to compile a main module from a text that
it was given. -/
def isApart : Stage → Bool
  | fresh (.transform _ _ _) => false
  | serving _ _ _ _ => false
  | done _ => false
  | cancelled => false
  | _ => true

/-- A task compiles only for a call of its own. -/
theorem compiling?_of_stageCall? {stage : Stage} (h : Session.stageCall? stage = none) :
    stage.compiling? = none := by
  cases stage with
  | serving => cases h
  | updating => cases h
  | _ => rfl

/-- Whether a stage fits is a matter of the call it is about. -/
theorem Fits.congr {o : Options} {w w' : Workbench} {stage : Stage} (h : stage.Fits o w)
    (hcalls : ∀ n, Session.stageCall? stage = some n → w'.calls[n]? = w.calls[n]?) :
    stage.Fits o w' := by
  cases stage with
  | serving r code call making =>
    have hsame := hcalls call rfl
    cases making <;> simpa only [Fits, Workbench.Waits, Workbench.Computes, hsame] using h
  | styling r call =>
    have hsame := hcalls call rfl
    simpa only [Fits, Workbench.Waits, hsame] using h
  | updating u component call making =>
    have hsame := hcalls call rfl
    cases making <;> simpa only [Fits, Workbench.Waits, Workbench.Computes, hsame] using h
  | _ => trivial

/-- That call has been made. -/
theorem Fits.isSome {o : Options} {w : Workbench} {stage : Stage} {n : Nat} (h : stage.Fits o w)
    (hcall : Session.stageCall? stage = some n) : n < w.calls.length := by
  have hlt {call : Call} {m : Nat} (hm : w.calls[m]? = some call) : m < w.calls.length :=
    (List.getElem?_eq_some_iff.1 hm).1
  cases stage with
  | serving r code call making =>
    cases hcall
    cases making with
    | none => exact h.elim fun _ hm => hlt hm
    | some c => exact h.1.elim fun _ hm => hm.elim fun _ hm => hlt hm
  | styling r call =>
    cases hcall
    exact h.elim fun _ hm => hlt hm
  | updating u component call making =>
    cases hcall
    cases making with
    | none => exact h.elim fun _ hm => hlt hm
    | some c => exact h.1.elim fun _ hm => hm.elim fun _ hm => hlt hm
  | _ => cases hcall

end Stage

namespace Session

open Workbench

variable {s y : Session} {i j n : Nat} {after : Compiler} {old stage : Stage} {r : Request}
  {code : String}

/-! ## What a task can do in a turn -/

/-- The call is the task's own: the one that its stage is about, or one made since. -/
def Owns (s : Session) (i n : Nat) : Prop :=
  s.bench.calls.length ≤ n ∨ ∃ stage, s.stage? i = some stage ∧ stageCall? stage = some n

/-- The call is the only one of the task's that has been made so far. -/
def Alone (s : Session) (i n : Nat) (w : Workbench) : Prop :=
  ∀ m, s.Owns i m → m < w.calls.length → m = n

/-- In a turn that leaves the compiler in a given state, the task ends a compile: one that it was
suspended on, or one that it begins and that ends at once. -/
inductive CompileEnds (s : Session) (after : Compiler) (i : Nat) (input : CompileInput)
    (result : CompileResult) : Prop where
  | awaited {stage : Stage} {c : Compiling} (hstage : s.stage? i = some stage)
      (hcompiling : stage.compiling? = some c) (hinput : c.input = input)
      (hended : s.compiler.resume c.input c.suspension = .ended result)
  | atOnce {stage : Stage} (hstage : s.stage? i = some stage) (hidle : stage.compiling? = none)
      (hstart : s.compiler.start input = (after, .ended result))

/-- A move that a task makes in a turn, on the workbench as it is by then. -/
inductive Deed (s : Session) (after : Compiler) (i : Nat) (w : Workbench) : Move → Prop where
  | make (key : Key) (intent : Intent) : Deed s after i w (.make key intent)
  | resume {n : Nat} (hown : s.Owns i n) : Deed s after i w (.resume n)
  | cancel {n : Nat} (hown : s.Owns i n) : Deed s after i w (.cancel n)
  /-- A compile has ended. -/
  | compiled {n t : Nat} {intent : Intent} {d : Option Filed} {input : CompileInput}
      {result : CompileResult} (hown : s.Owns i n) (halone : s.Alone i n w)
      (hends : s.CompileEnds after i input result)
      (hcall : w.calls[n]? = some ⟨⟨input.file, input.target⟩, intent, .computing t d⟩) :
      Deed s after i w (.finish n ((s.options.judge input result).mapError .compile))
  /-- A source cannot be read. -/
  | unread {n t : Nat} {d : Option Filed} {file : FilePath} (hown : s.Owns i n)
      (hcall : w.calls[n]? = some ⟨⟨file, .dom⟩, .recompute, .computing t d⟩) :
      Deed s after i w (.finish n (.error (.unreadable file)))
  /-- A record for the server is dropped. -/
  | drop {key : Key} (htarget : key.target = .ssr) : Deed s after i w (.invalidateKey key)

/-- The workbench is one that a task leads to in a turn. -/
inductive Deeds (s : Session) (after : Compiler) (i : Nat) : Workbench → Prop where
  | start : Deeds s after i s.bench
  | next {w : Workbench} {m : Move} (h : Deeds s after i w) (hm : s.Deed after i w m) :
      Deeds s after i (w.apply m)

/-- In its turn the task has come to a session from which it goes to its next stage. -/
structure Worked (s : Session) (after : Compiler) (i : Nat) (y : Session) : Prop where
  tasks : y.tasks = s.tasks
  options : y.options = s.options
  /-- At most one compile was begun. -/
  compiler : y.compiler = s.compiler ∨ ∃ input, y.compiler = (s.compiler.start input).1
  deeds : s.Deeds after i y.bench

/-! ## Main modules -/

/-- The task at a stage asks for the main module of a request, compiled from a text. -/
inductive Asks (s : Session) : Stage → Request → String → Prop where
  | transform {id code : String} {target : Target} {r : Request}
      (hparse : parse s.options id target = some r) (hmain : r.route = .main) :
      Asks s (.fresh (.transform id code target)) r code
  | request {r : Request} {code : String} (hmain : r.route = .main) :
      Asks s (.fresh (.serve r (some code))) r code
  | source {r : Request} {code : String} (hread : s.disk.read r.file = some code) :
      Asks s (.readingSource r) r code
  | waiting {r : Request} {code : String} {call : Nat} {making : Option Compiling} :
      Asks s (.serving r code call making) r code

/-- What a task that asks for a main module is given in its turn. -/
inductive Obtains (s : Session) (after : Compiler) (i : Nat) (old : Stage) (r : Request)
    (code : String) : Except BuildError Record → Prop where
  /-- A record of the text that is there. -/
  | found {f : Filed} (hready : s.bench.cache.content? r.key = some (.ready f))
      (hdigest : f.record.digest = .of code r.target) : Obtains s after i old r code (.ok f.record)
  /-- A record of the text that it waited for. -/
  | told {n t : Nat} {f : Filed} (hold : old = .serving r code n none)
      (hcall : s.bench.calls[n]? = some ⟨r.key, servingIntent r code, .waiting t⟩)
      (ha : s.bench.cache.announcement? t = some (.record f))
      (hdigest : f.record.digest = .of code r.target) : Obtains s after i old r code (.ok f.record)
  /-- The error of the compile that it waited for. -/
  | refused {n t : Nat} {e : BuildError} (hold : old = .serving r code n none)
      (hcall : s.bench.calls[n]? = some ⟨r.key, servingIntent r code, .waiting t⟩)
      (ha : s.bench.cache.announcement? t = some (.failure e)) :
      Obtains s after i old r code (.error e)
  /-- The outcome of its own compile. -/
  | compiled {result : CompileResult}
      (hends : s.CompileEnds after i (s.options.compileInput r.file code r.target) result) :
      Obtains s after i old r code
        ((s.options.judge (s.options.compileInput r.file code r.target) result).mapError .compile)

/-- What a task for a main module ends in. -/
def served (o : Options) (r : Request) : Except BuildError Record → TaskResult
  | .ok record => .content (some (mainCode o r record))
  | .error e => .refused (.build e)

/-- From which stage to which a turn leads, as far as it is about a main module. -/
inductive Next (s : Session) (after : Compiler) (i : Nat) (old : Stage) : Stage → Prop where
  | serving {r : Request} {code : String} {call : Nat} {making : Option Compiling}
      (hasks : s.Asks old r code) : Next s after i old (.serving r code call making)
  | served {r : Request} {code : String} {outcome : Except BuildError Record}
      (hasks : s.Asks old r code) (hobtains : s.Obtains after i old r code outcome) :
      Next s after i old (.done (served s.options r outcome))
  /-- It is left to others. -/
  | passed (hnone : ∀ r code, ¬ s.Asks old r code) : Next s after i old (.done (.content none))
  | cancelled : Next s after i old .cancelled
  /-- The task is for something else. -/
  | apart {new : Stage} (hapart : old.isApart) : Next s after i old new

/-- What a turn of a task makes of a session. -/
inductive Turned (s : Session) (i : Nat) (old : Stage) : Session → Prop where
  | intro {y : Session} {new : Stage} (hworked : s.Worked y.compiler i y)
      (hfits : new.Fits s.options y.bench) (hown : ∀ n, stageCall? new = some n → s.Owns i n)
      (hnext : s.Next y.compiler i old new) : Turned s i old (y.setStage i new)

/-! ## Deeds -/

/-- No call is forgotten. -/
theorem Deeds.length_le {w : Workbench} (h : s.Deeds after i w) :
    s.bench.calls.length ≤ w.calls.length := by
  induction h with
  | start => exact Nat.le_refl _
  | next h hm ih =>
    rw [length_calls_apply]
    omega

/-- No ticket is taken back. -/
theorem Deeds.nextTicket_le {w : Workbench} (h : s.Deeds after i w) :
    s.bench.cache.nextTicket ≤ w.cache.nextTicket := by
  induction h with
  | start => exact Nat.le_refl _
  | next h hm ih => exact Nat.le_trans ih (nextTicket_step (step_apply _ _))

/-- A task moves no call but its own. -/
theorem Deeds.calls_eq {w : Workbench} (h : s.Deeds after i w) (hown : ¬ s.Owns i n) :
    w.calls[n]? = s.bench.calls[n]? := by
  have hlt : n < s.bench.calls.length := Nat.lt_of_not_le fun hle => hown (.inl hle)
  induction h with
  | start => rfl
  | next h hm ih =>
    rw [← ih]
    refine calls_apply_of_ne (Nat.lt_of_lt_of_le hlt h.length_le) fun hcall => ?_
    -- Every deed that moves a call moves one that the task owns.
    cases hm with
    | make => cases hcall
    | drop => cases hcall
    | resume hown' =>
      cases hcall
      exact hown hown'
    | cancel hown' =>
      cases hcall
      exact hown hown'
    | compiled hown' =>
      cases hcall
      exact hown hown'
    | unread hown' =>
      cases hcall
      exact hown hown'

/-- A call that computes by the end of a turn did so before, or its ticket is new. -/
theorem Deeds.computing {w : Workbench} {call : Call} {t : Nat} {d : Option Filed}
    (h : s.Deeds after i w) (hcall : w.calls[n]? = some call)
    (hphase : call.phase = .computing t d) :
    s.bench.calls[n]? = some call ∨ s.bench.cache.nextTicket ≤ t := by
  induction h with
  | start => exact .inl hcall
  | next h hm ih =>
    rcases computing_step (step_apply _ _) hcall hphase with hold | ⟨_, rfl, _⟩
    · exact ih hold
    · exact .inr h.nextTicket_le

/-- The call that a stage is about is the only one of the task's while it makes no other. -/
theorem alone_of_stageCall? {w : Workbench} (hs : s.stage? i = some old)
    (hn : stageCall? old = some n) (hlength : w.calls.length = s.bench.calls.length) :
    s.Alone i n w := by
  rintro m (hle | ⟨stage, hstage, hm⟩) hlt
  · omega
  · cases hs.symm.trans hstage
    exact Option.some.inj (hm.symm.trans hn)

/-- A turn starts where it starts. -/
theorem worked_start (s : Session) (after : Compiler) (i : Nat) : s.Worked after i s :=
  ⟨rfl, rfl, .inl rfl, .start⟩

/-- A task that is there is found where it goes. -/
theorem Worked.stage?_setStage (h : s.Worked after i y) (hs : s.stage? i = some old)
    (new : Stage) : (y.setStage i new).stage? i = some new := by
  refine stage?_setStage_self ?_ new
  rw [stage?, h.tasks]
  exact Option.isSome_of_eq_some hs

/-- A deed is done. -/
theorem Worked.act {m : Move} (h : s.Worked after i y) (hm : s.Deed after i y.bench m) :
    s.Worked after i (y.act m) :=
  ⟨h.tasks, h.options, h.compiler, .next h.deeds hm⟩

/-- Something is said. -/
theorem Worked.say (h : s.Worked after i y) (notes : Journal) : s.Worked after i (y.say notes) :=
  ⟨h.tasks, h.options, h.compiler, h.deeds⟩

/-- A compile is begun, the first one of the turn. -/
theorem Worked.startCompile (h : s.Worked after i y) (hcompiler : y.compiler = s.compiler)
    (file : FilePath) (code : String) (target : Target) :
    s.Worked after i (y.startCompile file code target).1 := by
  refine ⟨h.tasks, h.options, .inr ⟨y.options.compileInput file code target, ?_⟩, h.deeds⟩
  rw [← hcompiler]
  rfl

/-- The call that a task makes is new, so it is the task's own. -/
theorem Worked.owns_new (h : s.Worked after i y) : s.Owns i y.bench.calls.length :=
  .inl h.deeds.length_le

/-- A call is made and resumed, and it is the task's own. -/
theorem Worked.call (h : s.Worked after i y) (key : Key) (intent : Intent) :
    s.Worked after i (y.call key intent).1 :=
  (h.act (.make key intent)).act (.resume h.owns_new)

/-- It is the only one of the task's if the task had none before. -/
theorem alone_call (hs : s.stage? i = some old) (hnone : stageCall? old = none)
    (hbench : y.bench = s.bench) (key : Key) (intent : Intent) :
    s.Alone i y.bench.calls.length (y.call key intent).1.bench := by
  rintro m (hle | ⟨stage, hstage, hm⟩) hlt
  · simp only [Session.call, bench_act, length_calls_apply, hbench] at hlt ⊢
    omega
  · cases hs.symm.trans hstage
    rw [hnone] at hm
    cases hm

/-- What a call comes to that a task makes. -/
theorem reaches_call (y : Session) (key : Key) (intent : Intent) :
    ∃ p, (y.call key intent).1.bench.calls[y.bench.calls.length]? = some ⟨key, intent, p⟩ ∧
      Reaches (y.bench.apply (.make key intent)) ⟨key, intent, .arriving⟩ p := by
  have hmade : (y.bench.apply (.make key intent)).calls[y.bench.calls.length]? =
      some ⟨key, intent, .arriving⟩ := by simp [Workbench.apply]
  exact reaches_resume hmade (.inl rfl)

/-- The task ends. -/
theorem turned_endTask (hworked : s.Worked y.compiler i y) {result : TaskResult}
    (hnext : s.Next y.compiler i old (.done result)) : Turned s i old (y.endTask i result) := by
  change Turned s i old (y.setStage i (.done result))
  exact .intro hworked trivial nofun hnext

/-! ## Serving -/

/-- A call for a main module takes the records of its text. -/
theorem digest_of_accepts {p : Phase} {record : Record}
    (h : (⟨r.key, servingIntent r code, p⟩ : Call).reuse.accepts record) :
    record.digest = .of code r.target :=
  (eq_of_beq h).symm

/-- The task ends with what its call has obtained. -/
theorem turned_endServing (hworked : s.Worked y.compiler i y) (hasks : s.Asks old r code)
    {outcome : Except BuildError Record} (hobtains : s.Obtains y.compiler i old r code outcome)
    (hanswer : y.bench.answer? n = some (.ofOutcome outcome)) :
    Turned s i old (y.endServing i r n) := by
  unfold endServing
  cases outcome with
  | ok record =>
    simp only [hanswer, Answer.ofOutcome, hworked.options]
    exact turned_endTask hworked (.served hasks hobtains)
  | error e =>
    simp only [hanswer, Answer.ofOutcome]
    exact turned_endTask hworked (.served hasks hobtains)

/-- A compile of a main module has ended or is suspended. -/
theorem turned_progressServing (hworked : s.Worked y.compiler i y) (hasks : s.Asks old r code)
    (hown : s.Owns i n) (halone : s.Alone i n y.bench)
    (hcomputes : y.bench.Computes n r.key (servingIntent r code)) {input : CompileInput}
    (hinput : input = s.options.compileInput r.file code r.target) {progress : Progress}
    (hends : ∀ result, progress = .ended result → s.CompileEnds y.compiler i input result) :
    Turned s i old (y.progressServing i r code n input progress) := by
  cases progress with
  | suspended suspension =>
    refine .intro hworked ⟨hcomputes, hinput⟩ ?_ (.serving hasks)
    rintro m hm
    cases hm
    exact hown
  | ended result =>
    obtain ⟨t, d, hcall⟩ := hcomputes
    subst hinput
    have hended := hends result rfl
    -- The compile has ended: its warnings are said, and its outcome goes to the call.
    have hjudged := hworked.say (s.options.warningNotes
      (s.options.compileInput r.file code r.target) result)
    have hfinished := hjudged.act (.compiled hown halone hended hcall)
    simp only [progressServing, finishServing, judge, hworked.options]
    refine turned_endServing hfinished hasks (.compiled hended) ?_
    cases result with
    | ok output => exact answer?_finish_ok hcall rfl _
    | error failure => exact answer?_finish_error hcall rfl _

/-- A task goes on from where its call for a main module has come to. -/
theorem turned_advanceServing (hs : s.stage? i = some old) (hidle : old.compiling? = none)
    (hworked : ∀ after, s.Worked after i y) (hcompiler : y.compiler = s.compiler)
    (hasks : s.Asks old r code) (hown : s.Owns i n) (halone : s.Alone i n y.bench)
    {w : Workbench} {p₀ p : Phase}
    (hcall : y.bench.calls[n]? = some ⟨r.key, servingIntent r code, p⟩)
    (hreaches : Reaches w ⟨r.key, servingIntent r code, p₀⟩ p)
    (hcache : w.cache = s.bench.cache)
    (hwaits : ∀ t, p₀ = .waiting t → old = .serving r code n none ∧
      s.bench.calls[n]? = some ⟨r.key, servingIntent r code, p₀⟩) :
    Turned s i old (y.advanceServing i r code n) := by
  -- However the call has come to return, the task ends with that.
  have hend {a : Answer Filed} (hp : p = .returned a) {outcome : Except BuildError Record}
      (ha : a.map Filed.record = .ofOutcome outcome)
      (hobtains : s.Obtains y.compiler i old r code outcome) :
      Turned s i old (y.advanceServing i r code n) := by
    subst hp
    simp only [advanceServing, phase?, hcall, Option.map_some]
    refine turned_endServing (hworked _) hasks hobtains ?_
    simp only [answer?, hcall, Option.bind_some, Call.answer?, ha]
  -- What a call can come to when it is resumed: a wait, a compute of its own, or an answer, and
  -- that is a record that was found, or what was told of the compute it waited for.
  cases hreaches with
  | waiting =>
    simp only [advanceServing, phase?, hcall, Option.map_some]
    refine .intro (hworked _) ⟨_, hcall⟩ ?_ (.serving hasks)
    rintro m hm
    cases hm
    exact hown
  | computing =>
    simp only [advanceServing, phase?, hcall, Option.map_some]
    have hstarted := (hworked (y.startCompile r.file code r.target).1.compiler).startCompile
      hcompiler r.file code r.target
    refine turned_progressServing hstarted hasks hown halone ⟨_, _, hcall⟩ ?_
      fun result hresult => ?_
    · simp only [Session.startCompile, say, (hworked y.compiler).options]
    · refine .atOnce hs hidle ?_
      rw [← hcompiler]
      exact Prod.ext rfl hresult
  | found hready haccepts =>
    rw [hcache] at hready
    exact hend rfl rfl (.found hready (digest_of_accepts haccepts))
  | told hphase ha haccepts =>
    rw [hcache] at ha
    obtain ⟨hold, hcall₀⟩ := hwaits _ hphase
    cases hphase
    exact hend rfl rfl (.told hold hcall₀ ha (digest_of_accepts haccepts))
  | refused hphase ha hintent =>
    rw [hcache] at ha
    obtain ⟨hold, hcall₀⟩ := hwaits _ hphase
    cases hphase
    exact hend rfl rfl (.refused hold hcall₀ ha)
  | absent hintent => cases hintent

/-- A main module begins to be served. -/
theorem turned_startServing (hs : s.stage? i = some old) (hnone : stageCall? old = none)
    (hworked : ∀ after, s.Worked after i y) (hbench : y.bench = s.bench)
    (hcompiler : y.compiler = s.compiler) (hasks : s.Asks old r code) :
    Turned s i old (y.startServing i r code) := by
  obtain ⟨p, hcall, hreaches⟩ := reaches_call y r.key (servingIntent r code)
  refine turned_advanceServing hs (Stage.compiling?_of_stageCall? hnone)
    (fun after => (hworked after).call _ _) hcompiler hasks (hworked s.compiler).owns_new
    (alone_call hs hnone hbench _ _) hcall hreaches ?_ nofun
  rw [hbench]
  rfl

/-- The text of a main module has been read, or cannot be. -/
theorem turned_sourceRead (hs : s.stage? i = some (.readingSource r)) :
    Turned s i (.readingSource r) (s.sourceRead i r) := by
  unfold sourceRead
  split
  · next code hread =>
    exact turned_startServing hs rfl (fun after => worked_start s after i) rfl rfl (.source hread)
  · exact turned_endTask (worked_start s _ i) (.apart rfl)

/-! ## Stylesheets -/

/-- The call for a stylesheet has come some way. -/
theorem turned_advanceStyling (hworked : s.Worked y.compiler i y) (hapart : old.isApart)
    (hown : s.Owns i n) {w : Workbench} {p₀ p : Phase}
    (hcall : y.bench.calls[n]? = some ⟨r.key, .settle, p⟩)
    (hreaches : Reaches w ⟨r.key, .settle, p₀⟩ p) :
    Turned s i old (y.advanceStyling i r n) := by
  cases hreaches with
  | waiting =>
    simp only [advanceStyling, phase?, hcall, Option.map_some]
    refine .intro hworked ⟨_, hcall⟩ ?_ (.apart hapart)
    rintro m hm
    cases hm
    exact hown
  -- Such a call never computes.
  | computing hintent => exact absurd rfl hintent
  | found =>
    simp only [advanceStyling, phase?, hcall, Option.map_some]
    exact turned_endTask (hworked.say _) (.apart hapart)
  | told =>
    simp only [advanceStyling, phase?, hcall, Option.map_some]
    exact turned_endTask (hworked.say _) (.apart hapart)
  | refused =>
    simp only [advanceStyling, phase?, hcall, Option.map_some]
    exact turned_endTask hworked (.apart hapart)
  | absent =>
    simp only [advanceStyling, phase?, hcall, Option.map_some]
    exact turned_endTask hworked (.apart hapart)

/-- A stylesheet begins to be served. -/
theorem turned_startStyling (hworked : s.Worked y.compiler i y) (hapart : old.isApart) :
    Turned s i old (y.startStyling i r) := by
  obtain ⟨p, hcall, hreaches⟩ := reaches_call y r.key .settle
  exact turned_advanceStyling (hworked.call _ _) hapart hworked.owns_new hcall hreaches

/-! ## Answering to changes -/

/-- The call for a new record has come some way. -/
theorem turned_advanceRecompute (hworked : s.Worked y.compiler i y) (hapart : old.isApart)
    (hown : s.Owns i n) (u : Update) {component : FilePath} {w : Workbench} {p₀ p : Phase}
    (hcall : y.bench.calls[n]? = some ⟨⟨component, .dom⟩, .recompute, p⟩)
    (hreaches : Reaches w ⟨⟨component, .dom⟩, .recompute, p₀⟩ p) :
    Turned s i old (y.advanceRecompute i u component n) := by
  have howned (making : Option Making) :
      ∀ m, stageCall? (.updating u component n making) = some m → s.Owns i m := by
    rintro m hm
    cases hm
    exact hown
  cases hreaches with
  | waiting =>
    simp only [advanceRecompute, isComputing, phase?, hcall, Option.map_some]
    exact .intro hworked ⟨_, hcall⟩ (howned none) (.apart hapart)
  | computing =>
    simp only [advanceRecompute, isComputing, phase?, hcall, Option.map_some, if_true]
    exact .intro hworked ⟨⟨_, _, hcall⟩, nofun⟩ (howned (some .reading)) (.apart hapart)
  -- A call that recomputes takes no record and no error but its own.
  | found hready haccepts => cases haccepts
  | told hphase ha haccepts => cases haccepts
  | refused hphase ha hintent => exact absurd rfl hintent
  | absent hintent => cases hintent

/-- A component begins to be made anew. -/
theorem turned_startRecompute (hworked : s.Worked y.compiler i y) (hapart : old.isApart)
    (u : Update) (component : FilePath) : Turned s i old (y.startRecompute i u component) := by
  obtain ⟨p, hcall, hreaches⟩ := reaches_call y ⟨component, .dom⟩ .recompute
  exact turned_advanceRecompute (hworked.call _ _) hapart hworked.owns_new u hcall hreaches

/-- The list of an answer is worked off up to the next component that is made anew. -/
theorem turned_drain (hworked : s.Worked y.compiler i y) (hapart : old.isApart) (file : FilePath)
    (affected : List String) (items : List UpdateItem) :
    Turned s i old (y.drain i file affected items) := by
  induction items generalizing y with
  | nil => exact turned_endTask hworked (.apart hapart)
  | cons item rest ih =>
    cases item with
    | component component => exact turned_startRecompute hworked hapart _ component
    | mention count => exact ih (hworked.say _)
    | dependent key =>
      unfold drain
      split
      · next htarget => exact ih (hworked.act (.drop htarget))
      · split
        · exact turned_startRecompute hworked hapart _ _
        · exact ih hworked

/-- A new record is compared, and the answer goes on. -/
theorem turned_reconcile (hworked : s.Worked y.compiler i y) (hapart : old.isApart) (u : Update)
    (component : FilePath) (previous : Option Record) (record : Record) :
    Turned s i old (y.reconcile i u component previous record) :=
  turned_drain ((hworked.act (.drop rfl)).say _) hapart _ _ _

/-- The compute of a new record ends. -/
theorem turned_finishRecompute (hworked : s.Worked y.compiler i y) (hapart : old.isApart)
    (u : Update) {component : FilePath}
    (hcomputes : y.bench.Computes n ⟨component, .dom⟩ .recompute)
    {outcome : Except BuildError Record}
    (hdeed : s.Deed y.compiler i y.bench (.finish n outcome)) :
    Turned s i old (y.finishRecompute i u component n outcome) := by
  obtain ⟨t, d, hcall⟩ := hcomputes
  have hfinished := hworked.act hdeed
  unfold finishRecompute
  cases outcome with
  | ok record =>
    have hanswer := answer?_finish_ok hcall rfl record
    rw [← bench_act] at hanswer
    simp only [hanswer, Call.computedAnswer, Answer.map]
    exact turned_reconcile hfinished hapart _ _ _ _
  | error e =>
    have hanswer := answer?_finish_error hcall rfl e
    rw [← bench_act] at hanswer
    simp only [hanswer]
    exact turned_endTask (hfinished.say _) (.apart hapart)

/-- A compile of a component has ended or is suspended. -/
theorem turned_progressRecompute (hworked : s.Worked y.compiler i y) (hapart : old.isApart)
    (hown : s.Owns i n) (halone : s.Alone i n y.bench) (u : Update) {component : FilePath}
    {code : String} (hcomputes : y.bench.Computes n ⟨component, .dom⟩ .recompute)
    {input : CompileInput}
    (hinput : input = s.options.compileInput component code .dom) {progress : Progress}
    (hends : ∀ result, progress = .ended result → s.CompileEnds y.compiler i input result) :
    Turned s i old (y.progressRecompute i u component n input progress) := by
  subst hinput
  cases progress with
  | suspended suspension =>
    refine .intro hworked ⟨hcomputes, ?_⟩ ?_ (.apart hapart)
    · rintro c hc
      cases hc
      exact ⟨code, rfl⟩
    · rintro m hm
      cases hm
      exact hown
  | ended result =>
    obtain ⟨t, d, hcall⟩ := hcomputes
    have hjudged := hworked.say (s.options.warningNotes
      (s.options.compileInput component code .dom) result)
    simp only [progressRecompute, judge, hworked.options]
    exact turned_finishRecompute (y := y.say _) hjudged hapart u ⟨t, d, hcall⟩
      (.compiled hown halone (hends result rfl) hcall)

/-- The text of a component has been read, or cannot be. -/
theorem turned_componentRead (hs : s.stage? i = some old) (hidle : old.compiling? = none)
    (hapart : old.isApart) (hn : stageCall? old = some n) (u : Update) {component : FilePath}
    (hcomputes : s.bench.Computes n ⟨component, .dom⟩ .recompute) :
    Turned s i old (s.componentRead i u component n) := by
  have hown : s.Owns i n := .inr ⟨old, hs, hn⟩
  unfold componentRead
  split
  · next code hread =>
    have hstarted := (worked_start s (s.startCompile component code .dom).1.compiler i).startCompile
      rfl component code .dom
    exact turned_progressRecompute hstarted hapart hown (alone_of_stageCall? hs hn rfl) u hcomputes
      rfl fun result hresult => .atOnce hs hidle (Prod.ext rfl hresult)
  · obtain ⟨t, d, hcall⟩ := hcomputes
    exact turned_finishRecompute (worked_start s _ i) hapart u ⟨t, d, hcall⟩ (.unread hown hcall)

/-- An answer to a change takes its first turn. -/
theorem turned_startChange (hapart : old.isApart) (file : FilePath) (timestamp : Nat) :
    Turned s i old (s.startChange i file timestamp) := by
  have hworked := worked_start s s.compiler i
  unfold startChange
  split
  · exact turned_endTask hworked (.apart hapart)
  · split
    · exact turned_endTask (hworked.say _) (.apart hapart)
    · -- The change is seen, which is no deed; a record for the server may go.
      have hreceived : s.Worked s.compiler i (s.receive file timestamp) := by
        have hseen : s.Worked s.compiler i (s.observe file timestamp) :=
          ⟨rfl, rfl, .inl rfl, .start⟩
        unfold receive
        split
        · exact hseen
        · exact hseen.act (.drop rfl)
      have hcompiler : (s.receive file timestamp).compiler = s.compiler := by
        unfold receive
        split <;> rfl
      rw [← hcompiler] at hreceived
      change Turned s i old (if _ then (s.receive file timestamp).endTask i _ else
        (s.receive file timestamp).drain i file [] _)
      split
      · exact turned_endTask hreceived (.apart hapart)
      · exact turned_drain hreceived hapart _ _ _

/-! ## Whole turns -/

/-- A task takes its first turn. -/
theorem turned_begin {job : Job} (hs : s.stage? i = some (.fresh job)) :
    Turned s i (.fresh job) (s.begin i job) := by
  have hworked (after : Compiler) := worked_start s after i
  cases job with
  | serve r code =>
    change Turned s i _ (s.startRequest i r code)
    unfold startRequest
    split
    · next hroute => exact turned_startServing hs rfl hworked rfl rfl (.request hroute)
    · exact .intro (hworked _) trivial nofun (.apart rfl)
    · exact turned_startStyling (hworked _) rfl
    · exact turned_endTask (hworked _) (.apart rfl)
  | load id target =>
    have hsaid := (hworked s.compiler).say (readingNotes s.options id target)
    simp only [begin, startLoad]
    split
    · split
      · exact turned_startStyling hsaid rfl
      · exact turned_endTask hsaid (.apart rfl)
    · exact turned_endTask hsaid (.apart rfl)
  | transform id code target =>
    have hsaid (after : Compiler) := (hworked after).say (readingNotes s.options id target)
    simp only [begin, startTransform]
    split
    · next r hparse =>
      split
      · next hmain => exact turned_startServing hs rfl hsaid rfl rfl (.transform hparse hmain)
      · -- Another route than that of a main module, or none, is left to others.
        next hother =>
        refine turned_endTask (hsaid _) (.passed fun r' code' hasks => ?_)
        cases hasks with
        | transform hparse' hmain =>
          cases hparse.symm.trans hparse'
          exact hother hmain
    · next hparse =>
      refine turned_endTask (hsaid _) (.passed fun r' code' hasks => ?_)
      cases hasks with
      | transform hparse' hmain =>
        have hnone : parse s.options id target = none := hparse
        rw [hparse'] at hnone
        cases hnone
  | change file timestamp => exact turned_startChange rfl file timestamp

/-- A task that is resumed takes a turn, unless it has ended. -/
theorem turned_resumeFrom (hs : s.stage? i = some old) (hfits : old.Fits s.options s.bench) :
    Turned s i old (s.resumeFrom i old) ∨ s.resumeFrom i old = s := by
  have hworked (after : Compiler) := worked_start s after i
  -- The call that a stage is about is the task's own, and it may be resumed.
  have hown {n : Nat} (hn : stageCall? old = some n) : s.Owns i n := .inr ⟨old, hs, hn⟩
  have hresumed {n : Nat} (hn : stageCall? old = some n) (after : Compiler) :
      s.Worked after i (s.act (.resume n)) := (hworked after).act (.resume (hown hn))
  cases old with
  | fresh job => exact .inl (turned_begin hs)
  | readingSource r => exact .inl (turned_sourceRead hs)
  | serving r code n making =>
    left
    cases making with
    | none =>
      -- The stage says that the call waits, so what it comes to is what a waiting call comes to.
      obtain ⟨t, hcall⟩ := hfits
      obtain ⟨p, hcall', hreaches⟩ := reaches_resume hcall (.inr ⟨t, rfl⟩)
      exact turned_advanceServing hs rfl (hresumed rfl) rfl .waiting (hown rfl)
        (alone_of_stageCall? hs rfl (length_calls_apply _ _)) hcall' hreaches rfl
        fun _ _ => ⟨rfl, hcall⟩
    | some c =>
      obtain ⟨hcomputes, hinput⟩ := hfits
      exact turned_progressServing (hworked _) .waiting (hown rfl) (alone_of_stageCall? hs rfl rfl)
        hcomputes hinput fun result hresult => .awaited hs rfl rfl hresult
  | styling r n =>
    left
    obtain ⟨t, hcall⟩ := hfits
    obtain ⟨p, hcall', hreaches⟩ := reaches_resume hcall (.inr ⟨t, rfl⟩)
    exact turned_advanceStyling (hresumed rfl _) rfl (hown rfl) hcall' hreaches
  | updating u component n making =>
    left
    match making with
    | none =>
      obtain ⟨t, hcall⟩ := hfits
      obtain ⟨p, hcall', hreaches⟩ := reaches_resume hcall (.inr ⟨t, rfl⟩)
      exact turned_advanceRecompute (hresumed rfl _) rfl (hown rfl) u hcall' hreaches
    | some .reading => exact turned_componentRead hs rfl rfl rfl u hfits.1
    | some (.compiling c) =>
      obtain ⟨code, hinput⟩ := hfits.2 c rfl
      exact turned_progressRecompute (hworked _) rfl (hown rfl) (alone_of_stageCall? hs rfl rfl) u
        hfits.1 hinput fun result hresult => .awaited hs rfl rfl hresult
  | done result => exact .inr rfl
  | cancelled => exact .inr rfl

/-- A task that is given up cancels its call, if it has one, and does no more. -/
theorem cancelled_cancel (s : Session) (i : Nat) :
    (∃ (old : Stage) (y : Session), s.stage? i = some old ∧ s.Worked y.compiler i y ∧
      (y.bench = s.bench ∨ ∃ n, y.bench = s.bench.apply (.cancel n)) ∧
      s.cancel i = y.setStage i .cancelled) ∨ s.cancel i = s := by
  unfold cancel
  split
  · exact .inr rfl
  · next t ht =>
    have hs : s.stage? i = some t.stage := by rw [stage?, ht]; rfl
    have hworked := worked_start s s.compiler i
    split
    · exact .inr rfl
    · exact .inr rfl
    · cases hn : stageCall? t.stage with
      | none => exact .inl ⟨t.stage, s, hs, hworked, .inl rfl, rfl⟩
      | some n =>
        have hcancelled : s.Worked s.compiler i (s.act (.cancel n)) :=
          hworked.act (.cancel (.inr ⟨_, hs, hn⟩))
        exact .inl ⟨t.stage, _, hs, hcancelled, .inr ⟨n, rfl⟩, rfl⟩

end Session

end HotComponents
