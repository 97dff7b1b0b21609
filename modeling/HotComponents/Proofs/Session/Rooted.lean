import HotComponents.Proofs.Cache.TurnsLeft
import HotComponents.Proofs.FilePath
import HotComponents.Proofs.ModuleId.RoundTrip
import HotComponents.Proofs.Session.Attended
import HotComponents.Proofs.Session.Change

/-!
# Only absolute files are compiled

Under an absolute root every request that is read from an identifier is for an absolute file. An
answer to a change makes a component anew only where a record is there already, so no file becomes
part of a session that is not absolute, however the files that change are written.

* `Workbench.rooted_apply`: what one move preserves;
* `Session.Steps.rooted`: components that are made anew are there, so they are absolute;
* `Session.rooted_run`: what a run of events preserves.
-/

namespace HotComponents

open ModuleId

/-- A call that does not have an absolute file never computes. -/
def Call.Rooted (call : Call) : Prop :=
  call.key.file.isAbsolute ∨ call.intent = .settle ∧ ∀ t d, call.phase ≠ .computing t d

namespace Workbench

variable {w : Workbench} {m : Move}

/-- Calls compute for absolute files only, and so all slots with a record are those of absolute
files. -/
structure Rooted (w : Workbench) : Prop where
  sound : Sound w
  calls : ∀ {i : Nat} {call : Call}, w.calls[i]? = some call → call.Rooted
  filled : Filled (fun slot _ => slot.1.head? = some .root) w

/-- The empty workbench has nothing to do with any file. -/
theorem rooted_empty : Rooted {} where
  sound := sound_empty
  calls := nofun
  filled := filled_empty _

/-- A slot that holds a record is that of an absolute file. -/
theorem Rooted.isAbsolute_of_ready (h : Rooted w) {k : Key} {f : Filed}
    (hready : w.cache.content? k = some (.ready f)) : k.file.isAbsolute :=
  FilePath.isAbsolute_iff.2 (h.filled.ready hready)

/-- No turn makes a call compute that only settles. -/
theorem rooted_turn {call : Call} (h : call.Rooted) {c c' : Cache} {i : Nat} {p : Phase}
    (hturn : Turn c call i m c' p) : (call.atPhase p).Rooted := by
  refine h.imp_right fun ⟨hsettles, hidle⟩ => ⟨hsettles, fun t d hphase => ?_⟩
  cases hturn with
  | rest => exact hidle t d hphase
  | lead _ _ hintent => exact hintent hsettles
  | _ => cases hphase

/-- What one move preserves, if it puts no record into a slot and makes no call that may compute for
a file that is not absolute. -/
theorem rooted_apply (h : Rooted w) (hput : m.put? = none)
    (hmake : ∀ key intent, m = .make key intent → intent = .settle ∨ key.file.isAbsolute) :
    Rooted (w.apply m) where
  sound := sound_step h.sound (step_apply w m)
  calls {i call} hcall := by
    have hstep := step_apply w m
    generalize w.apply m = w' at hstep hcall
    cases hstep with
    | idle => exact h.calls hcall
    | edit => exact h.calls hcall
    | make =>
      rcases calls_make hcall with hold | ⟨_, rfl⟩
      · exact h.calls hold
      · exact (hmake _ _ rfl).symm.imp_right fun hsettles => ⟨hsettles, nofun⟩
    | turn hcall' _ hturn =>
      rw [calls_update hcall'] at hcall
      split at hcall
      · cases hcall
        exact rooted_turn (h.calls hcall') hturn
      · exact h.calls hcall
  filled := by
    refine filled_apply h.sound h.filled ?_ ?_
    · intro j t leader d r _ hleader hleads
      have hfile := (h.calls hleader).resolve_right fun hsettles => hsettles.2 t d hleads
      exact FilePath.isAbsolute_iff.1 hfile
    · rintro r rfl
      cases hput

end Workbench

/-! ## Sessions -/

/-- What is to be made anew at once is an absolute file. -/
def UpdateItem.isRooted : UpdateItem → Bool
  | .component file => file.isAbsolute
  | _ => true

/-- The task will read, compile or make anew no file that is not absolute. -/
def Stage.isRooted : Stage → Bool
  | fresh (.serve r _) => r.file.isAbsolute
  | readingSource r => r.file.isAbsolute
  | updating u _ _ _ => u.rest.all UpdateItem.isRooted
  | _ => true

namespace Session

open Workbench (Rooted)

variable {s y : Session} {i : Nat} {r : Request} {stage : Stage} {e : Event} {events : List Event}

/-- The root is absolute, and no task has to do with a file that is not. -/
structure Rooted (s : Session) : Prop where
  root : s.options.root.isAbsolute
  bench : Workbench.Rooted s.bench
  stages : ∀ {i : Nat} {stage : Stage}, s.stage? i = some stage → stage.isRooted

/-- What one move preserves. -/
theorem rooted_act (h : Rooted s) {m : Move} (hput : m.put? = none)
    (hmake : ∀ key intent, m = .make key intent → intent = .settle ∨ key.file.isAbsolute) :
    Rooted (s.act m) where
  root := h.root
  bench := Workbench.rooted_apply h.bench hput hmake
  stages := h.stages

/-- What one move preserves that makes no call. -/
theorem rooted_move (h : Rooted s) {m : Move} (hput : m.put? = none) (hm : m.makesNone) :
    Rooted (s.act m) := by
  refine rooted_act h hput ?_
  rintro key intent rfl
  cases hm

/-- Nothing that is said matters. -/
theorem rooted_say (h : Rooted s) (notes : Journal) : Rooted (s.say notes) :=
  ⟨h.root, h.bench, h.stages⟩

/-- A task may come to any stage that has to do with absolute files only. -/
theorem rooted_setStage (h : Rooted s) (hstage : stage.isRooted) : Rooted (s.setStage i stage) where
  root := h.root
  bench := h.bench
  stages {j stage'} hj := by
    rw [stage?_setStage] at hj
    split at hj
    · obtain ⟨_, _, rfl⟩ := Option.map_eq_some_iff.1 hj
      exact hstage
    · exact h.stages hj

/-- A call that is made settles only, or is for an absolute file. -/
theorem rooted_call (h : Rooted s) {key : Key} {intent : Intent}
    (hkey : intent = .settle ∨ key.file.isAbsolute) : Rooted (s.call key intent).1 := by
  refine rooted_move (rooted_act h rfl ?_) rfl rfl
  rintro _ _ ⟨⟩
  exact hkey

/-- A slot with a record is that of an absolute file. -/
theorem Rooted.isAbsolute_of_peek (h : Rooted s) {key : Key}
    (hpeek : (s.bench.cache.peek key).isSome) : key.file.isAbsolute := by
  obtain ⟨record, hrecord⟩ := Option.isSome_iff_exists.1 hpeek
  obtain ⟨t, hready⟩ := Cache.ready_of_peek hrecord
  exact h.bench.isAbsolute_of_ready hready

/-- A request that is read is for an absolute file. -/
theorem isAbsolute_of_parse (h : Rooted s) {id : String} {target : Target}
    (hparse : parse s.options id target = some r) : r.file.isAbsolute :=
  isAbsolute_of_read h.root (parse_eq_some_iff.1 hparse)

/-! ## Turns -/

/-- A task has to do with absolute files only, and so these are all that it names. -/
theorem Rooted.isAbsolute_of_names (h : Rooted s) (hstage : stage.isRooted) {file : FilePath}
    (hnames : stage.Names s file) : file.isAbsolute := by
  cases stage with
  | fresh job =>
    cases job with
    | serve r code => exact hnames ▸ hstage
    | load => cases hnames
    | transform =>
      obtain ⟨r, hparse, rfl⟩ := hnames
      exact isAbsolute_of_parse h hparse
    | change =>
      obtain ⟨rfl, hpeek⟩ := hnames
      exact h.isAbsolute_of_peek hpeek
  | readingSource r => exact hnames ▸ hstage
  | updating u component call making => exact List.all_eq_true.1 hstage _ hnames
  | _ => cases hnames

/-- The other way round, a task that has begun is told by the files that it names. -/
theorem isRooted_of_names (honward : stage.isOnward)
    (hnames : ∀ file, stage.Names s file → file.isAbsolute) : stage.isRooted := by
  cases stage with
  | fresh => cases honward
  | readingSource r => exact hnames r.file rfl
  | updating u component call making =>
    refine List.all_eq_true.2 fun item hitem => ?_
    cases item with
    | component file => exact hnames file hitem
    | _ => rfl
  | _ => rfl

/-- A task compiles for a file that it names or for one that has a record, and either is
absolute. -/
theorem Steps.rooted {own₀ own : Option Nat} (h : Steps stage own₀ s own y) (hs : Rooted s)
    (hnames : ∀ file, stage.Names s file → file.isAbsolute) : Rooted y := by
  induction h with
  | start => exact hs
  | say _ notes ih => exact rooted_say ih notes
  | compile _ _ ih => exact ⟨ih.root, ih.bench, ih.stages⟩
  | call _ _ hfile ih =>
    exact rooted_call ih (hfile.imp_right fun hfile =>
      hfile.elim (hnames _) fun hpeek => ih.isAbsolute_of_peek hpeek)
  | resume _ ih => exact rooted_move ih rfl rfl
  | finish _ _ ih => exact rooted_move ih rfl rfl
  | giveUp _ ih => exact rooted_move ih rfl rfl
  | leave _ _ ih => exact ih
  | drop _ _ _ ih => exact rooted_move ih rfl rfl

/-- So is every file that the stage names which a turn leads to. -/
theorem Arrives.rooted {own₀ : Option Nat} (h : Arrives i stage own₀ s y) (hs : Rooted s)
    (hstage : stage.isRooted) : Rooted y := by
  have hnames (file : FilePath) (hnamed : stage.Names s file) : file.isAbsolute :=
    hs.isAbsolute_of_names hstage hnamed
  cases h with
  | comes h honward hfewer =>
    exact rooted_setStage (h.rooted hs hnames)
      (isRooted_of_names honward fun file hnamed => hnames file (hfewer file hnamed))
  | stays h => exact h.rooted hs hnames

/-- A turn makes no task have to do with a file that is not absolute. -/
theorem rooted_resume (h : Rooted s) (i : Nat) : Rooted (s.resume i) := by
  cases hs : s.stage? i with
  | none =>
    have hnone : s.tasks[i]? = none := Option.map_eq_none_iff.1 hs
    simpa only [resume, hnone] using h
  | some stage =>
    rw [resume_eq hs]
    obtain ⟨y, hoptions, hbench, htasks, hturn⟩ := exists_arrives s i stage
    have hrooted : Rooted y := by
      refine ⟨hoptions ▸ h.root, hbench ▸ h.bench, fun {j old} hj => ?_⟩
      rw [stage?, htasks] at hj
      exact h.stages hj
    rcases hturn with hturn | ⟨-, hstale⟩
    · exact hturn.rooted hrooted (h.stages hs)
    · rw [hstale]
      exact rooted_setStage hrooted rfl

/-! ## Events -/

/-- The event puts no record into the cache by itself, and if it starts a task for a request, that is
for an absolute file. -/
def Event.isRooted : Event → Bool
  | .start _ (.serve r _) => r.file.isAbsolute
  | e => e.putsNothing

/-- Such an event puts nothing into the cache. -/
theorem Event.putsNothing_of_isRooted (he : e.isRooted) : e.putsNothing := by
  cases e with
  | start name job => rfl
  | _ => exact he

/-- What an event preserves. -/
theorem rooted_apply (h : Rooted s) (he : e.isRooted) : Rooted (s.apply e) := by
  cases e with
  | start name job =>
    refine ⟨h.root, h.bench, fun {j stage} hj => ?_⟩
    rcases stage?_startTask hj with hold | ⟨_, rfl⟩
    · exact h.stages hold
    · cases job <;> exact he
  | resume i => exact rooted_resume h i
  | cancel i =>
    change Rooted (s.cancel i)
    cases ht : s.tasks[i]? with
    | none => simpa only [cancel, ht] using h
    | some t =>
      have hs : s.stage? i = some t.stage := by rw [stage?, ht]; rfl
      exact (arrives_cancel ht).rooted h (h.stages hs)
  | resolve id importer target =>
    obtain ⟨resolver, journal, happly⟩ := apply_resolve s id importer target
    rw [happly]
    exact ⟨h.root, h.bench, h.stages⟩
  | close => exact rooted_move (rooted_say h _) rfl rfl
  | edit m =>
    simp only [Event.isRooted, Event.putsNothing, Bool.and_eq_true, Option.isNone_iff_eq_none] at he
    refine rooted_move h he.2 ?_
    cases m <;> first | rfl | cases he.1
  | _ => exact ⟨h.root, h.bench, h.stages⟩

/-- At the start of a session under an absolute root there is no file yet. -/
theorem rooted_start (hroot : s.options.root.isAbsolute) (hbench : s.bench = {})
    (htasks : s.tasks = []) : Rooted s where
  root := hroot
  bench := hbench ▸ Workbench.rooted_empty
  stages hs := by simp [stage?, htasks] at hs

/-- What a run of events preserves. -/
theorem rooted_run (h : Rooted s) (he : ∀ e ∈ events, e.isRooted) : Rooted (s.run events) := by
  induction events generalizing s with
  | nil => exact h
  | cons e events ih =>
    rw [List.forall_mem_cons] at he
    exact ih (rooted_apply h he.1) he.2

end Session

end HotComponents
