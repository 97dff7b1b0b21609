import HotComponents.Session.Run

/-!
# What turns are made of

A turn of a task is made of few things: something is said, a compile goes on, and the task makes a
call on the cache, if it has none, or moves the one that it has; an answer to a change also drops
records for the server. Behind these steps the task comes to its next stage. So what is to hold
behind every turn need be shown of the steps only, whatever the functions are that take them.

* `Steps`, `Arrives`: steps within a turn, and a whole turn with the stage that it leads to;
* `arrives_resumeFrom`, `arrives_startChange`, `arrives_cancel`: the turns, as they are made of steps;
* `exists_arrives`: a change may be seen before the steps of its answer, or be found to be stale.
-/

namespace HotComponents

open ModuleId

namespace Stage

/-- The task has yet to take its first turn, in an answer to a change. -/
def isNotice : Stage → Bool
  | fresh (.change _ _) => true
  | _ => false

/-- The task at the stage answers to a change. -/
def answers : Stage → Bool
  | fresh (.change _ _) => true
  | updating _ _ _ _ => true
  | _ => false

/-- The stage is one that a turn leads to, unless the turn finds a change to be stale. -/
def isOnward : Stage → Bool
  | fresh _ => false
  | done (.updated .stale) => false
  | _ => true

/-- A file that the task may compile for without looking at its slot: it is that of the request, or
an answer to a change has it on its list. -/
def Names (s : Session) (file : FilePath) : Stage → Prop
  | fresh (.serve r _) => file = r.file
  | fresh (.transform id _ target) => ∃ r, parse s.options id target = some r ∧ file = r.file
  | fresh (.change changed _) => file = changed ∧ (s.bench.cache.peek ⟨changed, .dom⟩).isSome
  | readingSource r => file = r.file
  | updating u _ _ _ => .component file ∈ u.rest
  | _ => False

/-- No turn leads back to the first one. -/
theorem isNotice_of_isOnward {stage : Stage} (h : stage.isOnward) : stage.isNotice = false := by
  cases stage <;> first | rfl | cases h

end Stage

namespace Session

variable {s y : Session} {i n : Nat} {r : Request} {u : Update} {component : FilePath} {old : Stage}
  {own₀ own : Option Nat}

/-! ## Steps -/

/-- A task at a stage, which has a call on the cache or none, has come from a session to another one
within a turn, and has some call or none by then. -/
inductive Steps (old : Stage) (own₀ : Option Nat) (s : Session) : Option Nat → Session → Prop where
  | start : Steps old own₀ s own₀ s
  | say {own : Option Nat} {y : Session} (h : Steps old own₀ s own y) (notes : Journal) :
      Steps old own₀ s own (y.say notes)
  | compile {own : Option Nat} {y : Session} (h : Steps old own₀ s own y) (compiler : Compiler) :
      Steps old own₀ s own { y with compiler := compiler }
  /-- An answer to a change makes calls for the browser's records only. -/
  | call {y : Session} (h : Steps old own₀ s none y) {key : Key} {intent : Intent}
      (htarget : old.answers → key.target = .dom)
      (hfile : intent = .settle ∨ old.Names s key.file ∨ (y.bench.cache.peek key).isSome) :
      Steps old own₀ s (some y.bench.calls.length) (y.call key intent).1
  | resume {n : Nat} {y : Session} (h : Steps old own₀ s (some n) y) :
      Steps old own₀ s (some n) (y.act (.resume n))
  | finish {n : Nat} {y : Session} (h : Steps old own₀ s (some n) y)
      (outcome : Except BuildError Record) : Steps old own₀ s none (y.act (.finish n outcome))
  | giveUp {n : Nat} {y : Session} (h : Steps old own₀ s (some n) y) :
      Steps old own₀ s none (y.act (.cancel n))
  /-- The task is done with a call that has returned. -/
  | leave {n : Nat} {y : Session} (h : Steps old own₀ s (some n) y) {a : Answer Filed}
      (hphase : y.bench.phase? n = some (.returned a)) : Steps old own₀ s none y
  | drop {own : Option Nat} {y : Session} (h : Steps old own₀ s own y) (hanswers : old.answers)
      {l : Key} (hl : l.target = .ssr) : Steps old own₀ s own (y.act (.invalidateKey l))

/-- A task has come from a session to another one in a whole turn: by steps, and to a stage behind
them that names no other files, and is about the call that the task has, if it has one. -/
inductive Arrives (i : Nat) (old : Stage) (own₀ : Option Nat) (s : Session) : Session → Prop where
  | comes {own : Option Nat} {y : Session} {stage : Stage} (h : Steps old own₀ s own y)
      (honward : stage.isOnward) (hnames : ∀ file, stage.Names s file → old.Names s file)
      (hown : own = none ∨ own = stageCall? stage) : Arrives i old own₀ s (y.setStage i stage)
  | stays {y : Session} (h : Steps old own₀ s none y) : Arrives i old own₀ s y

namespace Steps

/-- Options and times stay, and so do the tasks until the turn is over. -/
theorem kept (h : Steps old own₀ s own y) :
    y.options = s.options ∧ y.lastSeen = s.lastSeen ∧ y.tasks = s.tasks := by
  induction h with
  | start => exact ⟨rfl, rfl, rfl⟩
  | _ => assumption

/-- The task ends. -/
theorem endTask (h : Steps old own₀ s none y) {result : TaskResult}
    (honward : (Stage.done result).isOnward) : Arrives i old own₀ s (y.endTask i result) :=
  .comes h honward nofun (.inl rfl)

/-- A compile is begun. -/
theorem startCompile (h : Steps old own₀ s own y) (file : FilePath) (code : String)
    (target : Target) : Steps old own₀ s own (y.startCompile file code target).1 :=
  (h.say _).compile _

/-! ## Serving -/

/-- What a call has returned is served. -/
theorem endServing (h : Steps old own₀ s none y) (n : Nat) :
    Arrives i old own₀ s (y.endServing i r n) := by
  unfold Session.endServing
  split
  · exact h.endTask rfl
  · exact h.endTask rfl
  · exact .stays h

/-- A compile of a main module is followed, to its end or to where it is suspended. -/
theorem progressServing (h : Steps old own₀ s (some n) y) (code : String) (input : CompileInput)
    (progress : Progress) : Arrives i old own₀ s (y.progressServing i r code n input progress) := by
  cases progress with
  | ended result => exact ((h.say _).finish _).endServing n
  | suspended suspension => exact .comes h rfl nofun (.inr rfl)

/-- The call for a main module is followed. -/
theorem advanceServing (h : Steps old own₀ s (some n) y) (code : String) :
    Arrives i old own₀ s (y.advanceServing i r code n) := by
  unfold Session.advanceServing
  split
  · exact (h.startCompile r.file code r.target).progressServing code _ _
  · next hphase => exact (h.leave hphase).endServing n
  · exact .comes h rfl nofun (.inr rfl)

/-- The call for a stylesheet is followed. -/
theorem advanceStyling (h : Steps old own₀ s (some n) y) :
    Arrives i old own₀ s (y.advanceStyling i r n) := by
  unfold Session.advanceStyling
  split
  · next hphase => exact ((h.leave hphase).say _).endTask rfl
  · next hphase => exact (h.leave hphase).endTask rfl
  · next hphase => exact (h.leave hphase).endTask rfl
  · exact .comes h rfl nofun (.inr rfl)

section Serving

variable (hserves : old.answers = false)
include hserves

/-- A main module is served from its text. -/
theorem startServing (h : Steps old own₀ s none y) (hfile : old.Names s r.file) (code : String) :
    Arrives i old own₀ s (y.startServing i r code) :=
  (h.call (by simp [hserves]) (.inr (.inl hfile))).advanceServing code

/-- A stylesheet is served. -/
theorem startStyling (h : Steps old own₀ s none y) : Arrives i old own₀ s (y.startStyling i r) :=
  (h.call (by simp [hserves]) (.inl rfl)).advanceStyling

/-- The text of a main module has been read, or cannot be. -/
theorem sourceRead (h : Steps old own₀ s none y) (hfile : old.Names s r.file) :
    Arrives i old own₀ s (y.sourceRead i r) := by
  unfold Session.sourceRead
  split
  · exact h.startServing hserves hfile _
  · exact h.endTask rfl

/-- A request begins to be served. -/
theorem startRequest (h : Steps old own₀ s none y) (hfile : old.Names s r.file)
    (code : Option String) : Arrives i old own₀ s (y.startRequest i r code) := by
  unfold Session.startRequest
  split
  · exact h.startServing hserves hfile _
  · exact .comes h rfl (fun _ hsame => hsame ▸ hfile) (.inl rfl)
  · exact h.startStyling hserves
  · exact h.endTask rfl

/-- The stylesheet of an identifier begins to be served. -/
theorem startLoad (h : Steps old own₀ s none y) (id : String) (target : Target) :
    Arrives i old own₀ s (y.startLoad i id target) := by
  have hsaid := h.say (readingNotes y.options id target)
  simp only [Session.startLoad]
  split
  · split
    · exact hsaid.startStyling hserves
    · exact hsaid.endTask rfl
  · exact hsaid.endTask rfl

/-- The main module of an identifier begins to be served. -/
theorem startTransform (h : Steps old own₀ s none y) (id code : String) (target : Target)
    (hfile : ∀ r, parse y.options id target = some r → old.Names s r.file) :
    Arrives i old own₀ s (y.startTransform i id code target) := by
  have hsaid := h.say (readingNotes y.options id target)
  simp only [Session.startTransform]
  split
  · next r hparse =>
    split
    · exact hsaid.startServing hserves (hfile r hparse) code
    · exact hsaid.endTask rfl
  · exact hsaid.endTask rfl

end Serving

/-! ## Answering to changes -/

/-- The call for a new record is followed. -/
theorem advanceRecompute (h : Steps old own₀ s (some n) y)
    (hrest : ∀ file, .component file ∈ u.rest → old.Names s file) :
    Arrives i old own₀ s (y.advanceRecompute i u component n) :=
  .comes h rfl hrest (.inr rfl)

/-- A component that is on the list, or whose record is to be seen, begins to be made anew. -/
theorem startRecompute (h : Steps old own₀ s none y)
    (hfile : old.Names s component ∨ (y.bench.cache.peek ⟨component, .dom⟩).isSome)
    (hrest : ∀ file, .component file ∈ u.rest → old.Names s file) :
    Arrives i old own₀ s (y.startRecompute i u component) :=
  (h.call (fun _ => rfl) (.inr hfile)).advanceRecompute hrest

section Answers

variable (hanswers : old.answers)
include hanswers

/-- The list is worked off up to the next component that is made anew. -/
theorem drain (h : Steps old own₀ s none y) (file : FilePath) (affected : List String)
    {items : List UpdateItem} (hitems : ∀ file, .component file ∈ items → old.Names s file) :
    Arrives i old own₀ s (y.drain i file affected items) := by
  induction items generalizing y with
  | nil => exact h.endTask rfl
  | cons item rest ih =>
    have hrest (file : FilePath) (hfile : .component file ∈ rest) : old.Names s file :=
      hitems file (List.mem_cons_of_mem _ hfile)
    cases item with
    | component component =>
      exact h.startRecompute (.inl (hitems component List.mem_cons_self)) hrest
    | mention count => exact ih (h.say _) hrest
    | dependent key =>
      unfold Session.drain
      split
      · next htarget => exact ih (h.drop hanswers htarget) hrest
      · next htarget =>
        split
        · next hpeek =>
          -- The key is the browser's, so it is the one that is made anew.
          obtain ⟨file, target⟩ := key
          cases htarget
          exact h.startRecompute (.inr hpeek) hrest
        · exact ih h hrest

variable (hrest : ∀ file, .component file ∈ u.rest → old.Names s file)
include hrest

/-- A new record is compared with the one before it, and the answer goes on to the rest. -/
theorem reconcile (h : Steps old own₀ s none y) (previous : Option Record) (record : Record) :
    Arrives i old own₀ s (y.reconcile i u component previous record) :=
  ((h.drop hanswers rfl).say _).drain hanswers _ _ hrest

/-- The compute of a new record ends. -/
theorem finishRecompute (h : Steps old own₀ s (some n) y) (outcome : Except BuildError Record) :
    Arrives i old own₀ s (y.finishRecompute i u component n outcome) := by
  have hfinished := h.finish outcome
  simp only [Session.finishRecompute]
  split
  · exact hfinished.reconcile hanswers hrest _ _
  · exact (hfinished.say _).endTask rfl
  · exact .stays hfinished

/-- A compile of a component is followed, to its end or to where it is suspended. -/
theorem progressRecompute (h : Steps old own₀ s (some n) y) (input : CompileInput)
    (progress : Progress) :
    Arrives i old own₀ s (y.progressRecompute i u component n input progress) := by
  cases progress with
  | ended result => exact (h.say _).finishRecompute hanswers hrest _
  | suspended suspension => exact .comes h rfl hrest (.inr rfl)

/-- The text of a component has been read, or cannot be. -/
theorem componentRead (h : Steps old own₀ s (some n) y) :
    Arrives i old own₀ s (y.componentRead i u component n) := by
  unfold Session.componentRead
  split
  · exact (h.startCompile component _ .dom).progressRecompute hanswers hrest _ _
  · exact h.finishRecompute hanswers hrest _

end Answers

end Steps

/-- So do options and times when the turn is over. -/
theorem Arrives.kept (h : Arrives i old own₀ s y) :
    y.options = s.options ∧ y.lastSeen = s.lastSeen := by
  cases h with
  | comes h => exact ⟨h.kept.1, h.kept.2.1⟩
  | stays h => exact ⟨h.kept.1, h.kept.2.1⟩

/-! ## Turns -/

/-- The session in which a file was seen to change, with the file's record for the server gone if
its record for the browser is not there. -/
def receive (s : Session) (file : FilePath) (timestamp : Nat) : Session :=
  let seen := s.observe file timestamp
  if (s.bench.cache.peek ⟨file, .dom⟩).isSome then seen else seen.act (.invalidateKey ⟨file, .ssr⟩)

/-- A change that is not stale is answered by what there is to do for it, if that is anything. -/
theorem startChange_eq {file : FilePath} {timestamp : Nat} (hhot : s.options.hot)
    (hnew : s.isStale file timestamp = false) :
    s.startChange i file timestamp =
      let loaded := (s.bench.cache.peek ⟨file, .dom⟩).isSome
      let dependents := s.bench.cache.dependents file
      if !loaded && dependents.isEmpty then
        (s.receive file timestamp).endTask i (.updated .notLoaded)
      else (s.receive file timestamp).drain i file [] (updateItems file loaded dependents) := by
  unfold startChange
  rw [if_neg (by simp [hhot]), if_neg (by simp [hnew])]
  rfl

/-- A stale change is answered at once. -/
theorem startChange_of_stale {file : FilePath} {timestamp : Nat} (hhot : s.options.hot)
    (hstale : s.isStale file timestamp) :
    ∃ notes, s.startChange i file timestamp = (s.say notes).endTask i (.updated .stale) := by
  unfold startChange
  rw [if_neg (by simp [hhot]), if_pos hstale]
  exact ⟨_, rfl⟩

/-- Only the file that has changed is on the list as a component, and only if it is loaded. -/
theorem component_mem_updateItems {file : FilePath} {loaded : Bool} {dependents : List Key}
    (h : .component component ∈ updateItems file loaded dependents) :
    component = file ∧ loaded := by
  unfold updateItems at h
  cases loaded <;> cases dependents <;> simp_all

/-- Of an answer whose change is seen now, the first turn goes on from there by steps. -/
theorem arrives_startChange {file : FilePath} {timestamp : Nat} (hhot : s.options.hot)
    (hnew : s.isStale file timestamp = false) :
    Arrives i (.fresh (.change file timestamp)) none (s.observe file timestamp)
      (s.startChange i file timestamp) := by
  have hreceived : Steps (.fresh (.change file timestamp)) none (s.observe file timestamp) none
      (s.receive file timestamp) := by
    unfold receive
    split
    · exact .start
    · exact Steps.start.drop rfl rfl
  rw [startChange_eq hhot hnew]
  dsimp only
  split
  · exact hreceived.endTask rfl
  · exact hreceived.drain rfl _ _ fun _ hfile => component_mem_updateItems hfile

/-- All other turns are made of steps. -/
theorem arrives_resumeFrom (hother : old.isNotice = false) :
    Arrives i old (stageCall? old) s (s.resumeFrom i old) := by
  match old with
  | .fresh (.serve r code) =>
    have hnamed : (Stage.fresh (.serve r code)).Names s r.file := rfl
    exact Steps.start.startRequest rfl hnamed code
  | .fresh (.load id target) => exact Steps.start.startLoad rfl id target
  | .fresh (.transform id code target) =>
    exact Steps.start.startTransform rfl id code target fun r hparse => ⟨r, hparse, rfl⟩
  | .fresh (.change _ _) => cases hother
  | .readingSource r => exact Steps.start.sourceRead rfl rfl
  | .serving r code n none => exact Steps.start.resume.advanceServing code
  | .serving r code n (some c) => exact Steps.start.progressServing code _ _
  | .styling r n => exact Steps.start.resume.advanceStyling
  | .updating u component n none => exact Steps.start.resume.advanceRecompute fun _ => id
  | .updating u component n (some .reading) => exact Steps.start.componentRead rfl fun _ => id
  | .updating u component n (some (.compiling c)) =>
    exact Steps.start.progressRecompute rfl (fun _ => id) _ _
  | .done _ => exact .stays .start
  | .cancelled => exact .stays .start

/-- Every turn is made of steps, but that an answer to a change may see the change before them, or
find it to be stale. -/
theorem exists_arrives (s : Session) (i : Nat) (old : Stage) :
    ∃ y, y.options = s.options ∧ y.bench = s.bench ∧ y.tasks = s.tasks ∧
      (Arrives i old (stageCall? old) y (s.resumeFrom i old) ∨
        old.isNotice ∧ s.resumeFrom i old = y.endTask i (.updated .stale)) := by
  cases hnotice : old.isNotice with
  | false => exact ⟨s, rfl, rfl, rfl, .inl (arrives_resumeFrom hnotice)⟩
  | true =>
    unfold Stage.isNotice at hnotice
    split at hnotice
    · next file timestamp =>
      change ∃ y, _ ∧ _ ∧ _ ∧ (Arrives i _ none y (s.startChange i file timestamp) ∨
        true ∧ s.startChange i file timestamp = _)
      cases hhot : s.options.hot with
      | false =>
        refine ⟨s, rfl, rfl, rfl, .inl ?_⟩
        unfold startChange
        rw [if_pos (by simp [hhot])]
        exact Steps.start.endTask rfl
      | true =>
        cases hstale : s.isStale file timestamp with
        | false =>
          exact ⟨s.observe file timestamp, rfl, rfl, rfl, .inl (arrives_startChange hhot hstale)⟩
        | true =>
          obtain ⟨notes, hstarted⟩ := startChange_of_stale (i := i) hhot hstale
          exact ⟨s.say notes, rfl, rfl, rfl, .inr ⟨rfl, hstarted⟩⟩
    · cases hnotice

/-- The workbench behind a turn is the one behind its steps. -/
theorem exists_steps (s : Session) (i : Nat) (old : Stage) :
    ∃ y own z, y.options = s.options ∧ y.bench = s.bench ∧ Steps old (stageCall? old) y own z ∧
      (s.resumeFrom i old).bench = z.bench := by
  obtain ⟨y, hoptions, hbench, -, hturn | ⟨-, hstale⟩⟩ := exists_arrives s i old
  · generalize s.resumeFrom i old = s' at hturn ⊢
    cases hturn with
    | comes h => exact ⟨y, _, _, hoptions, hbench, h, rfl⟩
    | stays h => exact ⟨y, _, _, hoptions, hbench, h, rfl⟩
  · exact ⟨y, _, y, hoptions, hbench, .start, by rw [hstale]; rfl⟩

/-- A task is given up by steps, with its call. -/
theorem arrives_cancel {t : Task} (ht : s.tasks[i]? = some t) :
    Arrives i t.stage (stageCall? t.stage) s (s.cancel i) := by
  simp only [cancel, ht]
  split
  · next hdone => exact hdone ▸ .stays .start
  · next hcancelled => exact hcancelled ▸ .stays .start
  · cases hcall : stageCall? t.stage with
    | none => exact .comes .start rfl nofun (.inl rfl)
    | some n => exact .comes Steps.start.giveUp rfl nofun (.inl rfl)

end Session

end HotComponents
