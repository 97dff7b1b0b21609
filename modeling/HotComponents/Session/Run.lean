import HotComponents.Session.Serve
import HotComponents.Session.Update

/-!
# Running sessions

All that happens to a session is a sequence of events; a task moves when it is resumed, in any
order and as often as one likes. Between the events of its users a session settles: its tasks run in
rounds until none can go on.

* `run_append`: a run goes on from where an earlier run ended;
* `apply_resume_of_done`: a task that has ended stays as it is.
-/

namespace HotComponents

open ModuleId

namespace Session

/-! ## Tasks -/

/-- A new task. -/
def startTask (s : Session) (name : String) (job : Job) : Session :=
  { s with tasks := s.tasks ++ [{ name, stage := .fresh job }] }

/-- A task runs for the first time. -/
def begin (s : Session) (i : Nat) : Job → Session
  | .serve r code => s.startRequest i r code
  | .load id target => s.startLoad i id target
  | .transform id code target => s.startTransform i id code target
  | .change file timestamp => s.startChange i file timestamp

/-- A task goes on as far as it can. -/
def resumeFrom (s : Session) (i : Nat) : Stage → Session
  | .fresh job => s.begin i job
  | .readingSource r => s.sourceRead i r
  -- A task that waits lets its call look first, and goes by what has come of it.
  | .serving r code call none => (s.act (.resume call)).advanceServing i r code call
  | .serving r code call (some c) =>
    s.progressServing i r code call c.input (s.compiler.resume c.input c.suspension)
  | .styling r call => (s.act (.resume call)).advanceStyling i r call
  | .updating u component call none => (s.act (.resume call)).advanceRecompute i u component call
  | .updating u component call (some .reading) => s.componentRead i u component call
  | .updating u component call (some (.compiling c)) =>
    s.progressRecompute i u component call c.input (s.compiler.resume c.input c.suspension)
  -- A task that has ended stays as it is, however often it is resumed.
  | .done _ => s
  | .cancelled => s

/-- The task with a given number goes on as far as it can. -/
def resume (s : Session) (i : Nat) : Session :=
  match s.tasks[i]? with
  | some t => s.resumeFrom i t.stage
  | none => s

/-- The call that a task at a stage has on the cache. -/
def stageCall? : Stage → Option Nat
  | .serving _ _ call _ => some call
  | .styling _ call => some call
  | .updating _ _ call _ => some call
  | _ => none

/-- A task is given up, and its call with it. -/
def cancel (s : Session) (i : Nat) : Session :=
  match s.tasks[i]? with
  | none => s
  | some t =>
    match t.stage with
    | .done _ => s
    | .cancelled => s
    | stage =>
      -- The call gives back what it has displaced and says that it has ended.
      let s := (stageCall? stage).elim s fun call => s.act (.cancel call)
      s.setStage i .cancelled

/-- What a task at a stage waits for is over. -/
def isReady (s : Session) : Stage → Bool
  | .fresh _ => true
  | .readingSource _ => true
  | .serving _ _ call none => s.bench.isRunnable call
  | .serving _ _ _ (some c) => s.compiler.isReady c.suspension
  | .styling _ call => s.bench.isRunnable call
  | .updating _ _ call none => s.bench.isRunnable call
  | .updating _ _ _ (some .reading) => true
  | .updating _ _ _ (some (.compiling c)) => s.compiler.isReady c.suspension
  | .done _ => false
  | .cancelled => false

/-- The tasks that can go on, in order of starting. -/
def runnable (s : Session) : List Nat :=
  (s.tasks.zipIdx.filter fun (t, _) => s.isReady t.stage).map Prod.snd

/-- How often a compile can pause. -/
def pauses (s : Session) : Nat :=
  match s.compiler.kind with
  | .rule pauses _ => pauses
  | .driven => 0

/-- More rounds than the tasks can take: each makes at most one call for every record there can be,
and each call hears of each other at most once. -/
def budget (s : Session) : Nat :=
  let tasks := s.tasks.length + 2
  let records := s.bench.cache.graph.forward.length + tasks
  let turns := tasks * records * (s.pauses + 4)
  turns * turns

/-- The session when no task can go on. -/
def settle (s : Session) : Session := Rounds.settle runnable resume s.budget s

/-- The number of the latest task with a name. -/
def findTask? (s : Session) (name : String) : Option Nat :=
  (s.tasks.zipIdx.reverse.find? fun (t, _) => t.name == name).map Prod.snd

/-- The tasks whose standing is not the one that was last reported, and the session in which it
is. -/
def report (s : Session) : List Task × Session :=
  (s.tasks.filter fun t => t.reported ≠ some t.standing,
    { s with tasks := s.tasks.map fun t => { t with reported := some t.standing } })

/-! ## Hooks -/

/-- A session begins. -/
def opened (s : Session) : Session :=
  s.say [.detail "plugin" ("session started at " ++ s.options.root.text)]

/-- Resolves an import: an identifier of a stylesheet resolves to itself, and a bare import may
resolve to its package's entry. -/
def resolveId (s : Session) (id : String) (importer? : Option FilePath) (target : Target) :
    Session × Except Package.AccessFailure (Option String) :=
  let s := s.say (readingNotes s.options id target)
  match resolveVirtual s.options id target with
  | some virtual => (s, .ok (some virtual))
  | none =>
    let found := s.resolver.resolve s.packages id importer?
    ({ s with resolver := found.resolver }.say found.notes,
      found.result.map fun entry? => entry?.map FilePath.text)

/-- A build pass ends; the report is said, if there is one. -/
def buildEnd (s : Session) : Session × Option String :=
  (s.say s.resolver.buildEndNotes, s.resolver.hidden.report)

/-- The session ends: every record is dropped. -/
def close (s : Session) : Session :=
  (s.say [.note "plugin" ("closing, " ++ toString s.bench.cache.size ++ " record(s) dropped")]).act
    .clear

/-! ## Events -/

/-- Something that happens to a session. -/
inductive Event where
  /-- A task is started. -/
  | start (name : String) (job : Job)
  /-- A task goes on as far as it can. -/
  | resume (i : Nat)
  /-- A task is given up. -/
  | cancel (i : Nat)
  /-- The files change. -/
  | disk (d : Disk)
  /-- Results are lined up for the compiler. -/
  | lineUp (results : List CompileResult)
  /-- A result is delivered to a compile that waits for one. -/
  | deliver (number : Nat) (result : CompileResult)
  /-- An import is resolved. -/
  | resolve (id : String) (importer : Option FilePath) (target : Target)
  /-- A build pass ends. -/
  | buildEnd
  /-- The session ends. -/
  | close
  /-- The cache is changed directly. -/
  | edit (m : Move)

/-- The session after an event. -/
def apply (s : Session) : Event → Session
  | .start name job => s.startTask name job
  | .resume i => s.resume i
  | .cancel i => s.cancel i
  | .disk d => { s with disk := d }
  | .lineUp results => { s with compiler := s.compiler.lineUp results }
  | .deliver number result =>
    { s with compiler := (s.compiler.deliver? number result).getD s.compiler }
  | .resolve id importer target => (s.resolveId id importer target).1
  | .buildEnd => s.buildEnd.1
  | .close => s.close
  | .edit m => s.act m

/-- The session after a sequence of events. -/
def run (s : Session) (events : List Event) : Session := events.foldl apply s

theorem run_append (s : Session) (events more : List Event) :
    s.run (events ++ more) = (s.run events).run more := by
  simp [run]

theorem apply_resume_of_done {s : Session} {i : Nat} {t : Task} {result : TaskResult}
    (ht : s.tasks[i]? = some t) (h : t.stage = .done result) : s.apply (.resume i) = s := by
  simp [apply, resume, ht, h, resumeFrom]

end Session

end HotComponents
