import HotComponents.Cache.Workbench
import HotComponents.Component.Change
import HotComponents.Component.Compiler
import HotComponents.Disk
import HotComponents.ModuleId.Codec
import HotComponents.Package.Resolver
import HotComponents.Rounds

/-!
# Sessions

A session serves the modules of components and answers to changes of files. Its state is all that a
later answer can depend on: options, files, compiler, cache with its calls, the last time each file
was seen to change, and the tasks that have not ended. A task is suspended at one of a few stages,
each of which says what it waits for and what it does next.

* `Session.bench_act`: the cache of a session changes by moves on its workbench.
-/

namespace HotComponents

open ModuleId

/-! ## Answers -/

/-- Why a module is not served. -/
inductive ServeError where
  /-- A stylesheet was asked for before its component was compiled. -/
  | styleTooEarly (file : FilePath)
  /-- There is no record to serve from. -/
  | build (e : BuildError)
deriving DecidableEq, Repr

/-- The wording of an error. -/
def ServeError.message : ServeError → String
  | styleTooEarly file =>
    "no compiled output for `" ++ file.text ++
      "`: style requested before the component was compiled"
  | build e => e.message

/-- What a change of a file came to. -/
inductive UpdateOutcome where
  /-- The file was seen to change then or later already. -/
  | stale
  /-- Nothing depends on the file. -/
  | notLoaded
  /-- The modules that are stale now, in order. -/
  | affected (ids : List String)
deriving DecidableEq, Repr

/-- What a task ends in. -/
inductive TaskResult where
  | content (code : Option Code)
  | refused (e : ServeError)
  | updated (outcome : UpdateOutcome)
  | failed (e : BuildError)
deriving DecidableEq, Repr

/-! ## Tasks -/

/-- What a task is started for. -/
inductive Job where
  /-- The module of a request; the source text is read if it is not given. -/
  | serve (r : Request) (code : Option String)
  /-- The stylesheet of an identifier. -/
  | load (id : String) (target : Target)
  /-- The main module of an identifier, from its source text. -/
  | transform (id : String) (code : String) (target : Target)
  /-- The answer to a change of a file. -/
  | change (file : FilePath) (timestamp : Nat)
deriving DecidableEq, Repr

/-- A compile under way. -/
structure Compiling where
  input : CompileInput
  suspension : Suspension
deriving DecidableEq, Repr

/-- What is still to be done for a change. -/
inductive UpdateItem where
  /-- Compile the component again. -/
  | component (file : FilePath)
  /-- Say how many records use the changed file. -/
  | mention (count : Nat)
  /-- Treat a record that depends on the changed file. -/
  | dependent (key : Key)
deriving DecidableEq, Repr

/-- The answer to a change as far as it has come. -/
structure Update where
  /-- The changed file. -/
  file : FilePath
  /-- What is still to be done. -/
  rest : List UpdateItem
  /-- The modules that are stale. -/
  affected : List String
deriving DecidableEq, Repr

/-- How the holder of a ticket makes the record. -/
inductive Making where
  /-- It reads the source. -/
  | reading
  /-- It compiles. -/
  | compiling (c : Compiling)
deriving DecidableEq, Repr

/-- Where a task is suspended, or how it ended. -/
inductive Stage where
  /-- It has not run yet. -/
  | fresh (job : Job)
  /-- It reads the source of a main module. -/
  | readingSource (r : Request)
  /-- It waits on a call for the record of a main module, and compiles if the call computes. -/
  | serving (r : Request) (code : String) (call : Nat) (compiling : Option Compiling)
  /-- It waits on a call for the record of a stylesheet. -/
  | styling (r : Request) (call : Nat)
  /-- It waits on a call for a new record of a component, and makes it if the call computes. -/
  | updating (u : Update) (component : FilePath) (call : Nat) (making : Option Making)
  /-- It has ended. -/
  | done (result : TaskResult)
  /-- It was cancelled. -/
  | cancelled
deriving DecidableEq, Repr

/-- A task with a name. -/
structure Task where
  name : String
  stage : Stage
  /-- The standing that was last reported. -/
  reported : Option Standing := none
deriving DecidableEq, Repr

/-- How a task stands. -/
def Task.standing (t : Task) : Standing :=
  match t.stage with
  | .done _ => .done
  | .cancelled => .cancelled
  | _ => .waiting

/-! ## State -/

/-- The state of a session. -/
structure Session where
  options : Options
  compiler : Compiler
  disk : Disk := {}
  packages : Package.Packages := fun _ _ => .ok none
  resolver : Package.Resolver := {}
  bench : Workbench := {}
  /-- The time of the latest change of each file. -/
  lastSeen : List (List FilePath.Component × Nat) := []
  tasks : List Task := []
  journal : Journal := []

namespace Session

/-- The session with something said. -/
def say (s : Session) (notes : Journal) : Session := { s with journal := s.journal ++ notes }

/-- The session after a move on its workbench, and what is said in it. -/
def act (s : Session) (m : Move) : Session :=
  { s with bench := s.bench.apply m }.say (s.bench.notes m)

/-- The session with a task at another stage. -/
def setStage (s : Session) (i : Nat) (stage : Stage) : Session :=
  { s with tasks := s.tasks.modify i fun t => { t with stage } }

/-- The session with a task ended. -/
def endTask (s : Session) (i : Nat) (result : TaskResult) : Session := s.setStage i (.done result)

/-- The session with a call made and resumed once, and the number of that call. -/
def call (s : Session) (key : Key) (intent : Intent) : Session × Nat :=
  let number := s.bench.calls.length
  ((s.act (.make key intent)).act (.resume number), number)

/-- The session with a compile begun, and how far that has come. -/
def startCompile (s : Session) (file : FilePath) (code : String) (target : Target) :
    Session × CompileInput × Progress :=
  let input := s.options.compileInput file code target
  let s := s.say (Options.startNotes input)
  let (compiler, progress) := s.compiler.start input
  ({ s with compiler }, input, progress)

/-- The session after a compile, and the record or error it ended in. -/
def judge (s : Session) (input : CompileInput) (result : CompileResult) :
    Session × Except BuildError Record :=
  (s.say (s.options.warningNotes input result), (s.options.judge input result).mapError .compile)

@[simp] theorem bench_say (s : Session) (notes : Journal) : (s.say notes).bench = s.bench := rfl

@[simp] theorem bench_setStage (s : Session) (i : Nat) (stage : Stage) :
    (s.setStage i stage).bench = s.bench := rfl

/-- The cache of a session changes by moves on its workbench. -/
@[simp] theorem bench_act (s : Session) (m : Move) : (s.act m).bench = s.bench.apply m := rfl

@[simp] theorem bench_startCompile (s : Session) (file : FilePath) (code : String)
    (target : Target) : (s.startCompile file code target).1.bench = s.bench := rfl

@[simp] theorem bench_judge (s : Session) (input : CompileInput) (result : CompileResult) :
    (s.judge input result).1.bench = s.bench := rfl

end Session

end HotComponents
