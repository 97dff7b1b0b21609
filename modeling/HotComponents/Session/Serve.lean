import HotComponents.Session.Basic
import HotComponents.Text.Literal

/-!
# Serving modules

A main module is compiled through the cache under the digest of its source text, so it is served
from a record of that very text. A stylesheet is read from the record that the main module was compiled
to, once no compile of it is under way; where there is none, it was asked for too early.

* `mainCode_of_no_css`: a component without a stylesheet is served as it was compiled.
-/

namespace HotComponents

open ModuleId

/-- The import of a stylesheet, as the last line of a module. -/
def importLine (styleId : String) : String := "\nimport " ++ Text.quoted styleId ++ ";\n"

/-- The main module as it is served: it imports the stylesheet if that is a module of its own. -/
def mainCode (o : Options) (r : Request) (record : Record) : Code :=
  if record.hasCss && o.emitCss then
    { record.js with text := record.js.text ++ importLine (styleId r) }
  else record.js

theorem mainCode_of_no_css {o : Options} {r : Request} {record : Record} (h : record.css = none) :
    mainCode o r record = record.js := by
  simp [mainCode, Record.hasCss, h]

namespace Session

/-! ## Main modules -/

/-- The task ends with what its call returned for a main module. -/
def endServing (s : Session) (i : Nat) (r : Request) (call : Nat) : Session :=
  match s.bench.answer? call with
  | some (.record record) => s.endTask i (.content (some (mainCode s.options r record)))
  | some (.failure e) => s.endTask i (.refused (.build e))
  | _ => s

/-- The compile of a main module has ended. -/
def finishServing (s : Session) (i : Nat) (r : Request) (call : Nat) (input : CompileInput)
    (result : CompileResult) : Session :=
  let (s, outcome) := s.judge input result
  (s.act (.finish call outcome)).endServing i r call

/-- The task goes on from a compile of a main module that has ended or is suspended. -/
def progressServing (s : Session) (i : Nat) (r : Request) (code : String) (call : Nat)
    (input : CompileInput) : Progress → Session
  | .ended result => s.finishServing i r call input result
  | .suspended suspension => s.setStage i (.serving r code call (some ⟨input, suspension⟩))

/-- The task goes on from where its call for a main module has come to. -/
def advanceServing (s : Session) (i : Nat) (r : Request) (code : String) (call : Nat) : Session :=
  match s.bench.phase? call with
  | some (.computing _ _) =>
    let (s, input, progress) := s.startCompile r.file code r.target
    s.progressServing i r code call input progress
  | some (.returned _) => s.endServing i r call
  -- Another call computes for the slot.
  | _ => s.setStage i (.serving r code call none)

/-- The call for a main module: a record of the same source text will do. -/
def servingIntent (r : Request) (code : String) : Intent :=
  .obtain (.matching (.of code r.target))

/-- The task begins to serve a main module. -/
def startServing (s : Session) (i : Nat) (r : Request) (code : String) : Session :=
  let (s, call) := s.call r.key (servingIntent r code)
  s.advanceServing i r code call

/-- The source of a main module has been read, or cannot be. -/
def sourceRead (s : Session) (i : Nat) (r : Request) : Session :=
  match s.disk.read r.file with
  | some code => s.startServing i r code
  | none => s.endTask i (.refused (.build (.unreadable r.file)))

/-! ## Stylesheets -/

/-- What is said when a component has no stylesheet. -/
def styleNotes (r : Request) (record : Record) : Journal :=
  if record.hasCss then [] else [.detail "router" (r.shown ++ " has no css")]

/-- The task goes on from where its call for a stylesheet has come to. -/
def advanceStyling (s : Session) (i : Nat) (r : Request) (call : Nat) : Session :=
  match s.bench.phase? call with
  | some (.returned (.record f)) =>
    (s.say (styleNotes r f.record)).endTask i (.content f.record.css)
  | some (.returned (.failure e)) => s.endTask i (.refused (.build e))
  -- The main module is served first and leaves a record.
  | some (.returned .absent) => s.endTask i (.refused (.styleTooEarly r.file))
  | _ => s.setStage i (.styling r call)

/-- The task begins to serve a stylesheet. -/
def startStyling (s : Session) (i : Nat) (r : Request) : Session :=
  let (s, call) := s.call r.key .settle
  s.advanceStyling i r call

/-! ## Requests -/

/-- The task begins to serve a request. -/
def startRequest (s : Session) (i : Nat) (r : Request) (code : Option String) : Session :=
  match r.route, code with
  | .main, some code => s.startServing i r code
  | .main, none => s.setStage i (.readingSource r)
  | .style, _ => s.startStyling i r
  | .unhandled, _ => s.endTask i (.content none)

/-- The task begins to load the stylesheet of an identifier; all else is left to others. -/
def startLoad (s : Session) (i : Nat) (id : String) (target : Target) : Session :=
  let s := s.say (readingNotes s.options id target)
  match parse s.options id target with
  | some r => if r.route = .style then s.startStyling i r else s.endTask i (.content none)
  | none => s.endTask i (.content none)

/-- The task begins to compile the main module of an identifier; all else is left to others. -/
def startTransform (s : Session) (i : Nat) (id code : String) (target : Target) : Session :=
  let s := s.say (readingNotes s.options id target)
  match parse s.options id target with
  | some r => if r.route = .main then s.startServing i r code else s.endTask i (.content none)
  | none => s.endTask i (.content none)

/-- The identifier of the stylesheet of a request's component, if its record has one. -/
def styleIdFor (s : Session) (r : Request) : Option String :=
  match s.bench.cache.peek r.key with
  | some record => if record.hasCss then some (styleId r) else none
  | none => none

end Session

end HotComponents
