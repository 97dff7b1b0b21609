import HotComponents.Proofs.Cache.Ordered
import HotComponents.Proofs.Session.Failure
import HotComponents.Proofs.Session.HotUpdate

/-!
# How records reach their modules

A task that serves a main module ends with the code of a record that its call has returned: the one
in the slot, one that it was told, or one of its own that was superseded. A task that loads a
stylesheet never computes, so it ends with that of the record it finds or is told.

* `exists_last_turn`: a task ends in one of its turns;
* `delivers_resume`, `transform_delivered`: where the record behind a served module is then;
* `styled_resume`, `loads_run`: what a task for a stylesheet comes to.
-/

namespace HotComponents

open ModuleId

namespace Workbench

variable {w : Workbench} {n t : Nat} {call : Call} {d : Option Filed}

/-- No call is forgotten in a run. -/
theorem length_calls_le_run (w : Workbench) (moves : List Move) :
    w.calls.length ≤ (w.run moves).calls.length := by
  induction moves generalizing w with
  | nil => exact Nat.le_refl _
  | cons m moves ih =>
    have hstep := length_calls_apply w m
    exact Nat.le_trans (by omega) (ih (w.apply m))

/-- Where a compute that has succeeded leaves its call and its slot. -/
theorem apply_finish_of_computing (hcall : w.calls[n]? = some call)
    (hphase : call.phase = .computing t d) (record : Record) :
    (w.apply (.finish n (.ok record))).calls[n]? =
        some (call.atPhase (.returned (call.computedAnswer d ⟨record, some t⟩))) ∧
      (w.apply (.finish n (.ok record))).cache.content? call.key =
        if w.cache.isPending call.key t then some (.ready ⟨record, some t⟩)
        else w.cache.content? call.key := by
  have happly : w.apply (.finish n (.ok record)) =
      w.update n ((w.cache.redeem call.key t record).announce t (.record ⟨record, some t⟩))
        (call.atPhase (.returned (call.computedAnswer d ⟨record, some t⟩))) := by
    simp only [apply, hcall, Call.finish, hphase]
  rw [happly]
  constructor
  · rw [calls_update hcall, if_pos rfl]
  · have hredeem := w.cache.content?_redeem call.key call.key t record
    simp only [eq_self, and_true] at hredeem
    exact hredeem

end Workbench

namespace Session

open Workbench

variable {s y : Session} {i n t : Nat} {old stage : Stage} {events : List Event} {r q : Request}
  {code sid : String} {js : Code} {target : Target} {f : Filed} {d : Option Filed}

theorem Event.putsNothing_of_isInside {e : Event} (h : e.isInside) : e.putsNothing := by
  cases e with
  | edit m => cases h
  | _ => rfl

/-! ## The turn in which a task ends -/

/-- A task that is given up is cancelled, unless it has ended. -/
theorem stage?_cancel (s : Session) (i : Nat) :
    s.cancel i = s ∨ (s.cancel i).stage? i = some .cancelled := by
  rcases cancelled_cancel s i with ⟨old, y, hold, hworked, _, hcancel⟩ | hsame
  · right
    rw [hcancel]
    exact hworked.stage?_setStage hold _
  · exact .inl hsame

/-- Of the cache, only a call that a task has moves when the task is given up. -/
theorem bench_cancel (s : Session) (i : Nat) :
    (s.cancel i).bench = s.bench ∨ ∃ n, (s.cancel i).bench = s.bench.apply (.cancel n) := by
  rcases cancelled_cancel s i with ⟨old, y, _, _, hbench, hcancel⟩ | hsame
  · rw [hcancel]
    exact hbench
  · exact .inl (congrArg Session.bench hsame)

/-- A task that is there before an event is there behind it. -/
theorem isSome_stage?_apply (h : Attended s) (hs : s.stage? i = some stage) (e : Event) :
    ((s.apply e).stage? i).isSome := by
  -- Turns and cancellations set a new stage, and other events leave the old one.
  by_cases hi : e.actor? = some i
  · cases e with
    | resume j =>
      cases hi
      change ((s.resume i).stage? i).isSome
      rcases turned_resume h i with ⟨old, hold, hturned⟩ | hsame
      · generalize s.resume i = s' at hturned
        cases hturned with
        | intro hworked => exact Option.isSome_of_eq_some (hworked.stage?_setStage hold _)
      · rw [hsame]
        exact Option.isSome_of_eq_some hs
    | cancel j =>
      cases hi
      change ((s.cancel i).stage? i).isSome
      rcases s.stage?_cancel i with hsame | hcancelled
      · rw [hsame]
        exact Option.isSome_of_eq_some hs
      · exact Option.isSome_of_eq_some hcancelled
    | _ => cases hi
  · exact Option.isSome_of_eq_some (stage?_apply_of_ne hs hi)

/-- A task that is given up ends with no result. -/
theorem stage?_cancel_ne_done {result : TaskResult} (hs : s.stage? i = some stage)
    (hopen : stage.hasEnded = false) : (s.cancel i).stage? i ≠ some (.done result) := by
  intro hdone
  rcases s.stage?_cancel i with hsame | hcancelled
  · rw [hsame, hs] at hdone
    cases hdone
    cases hopen
  · cases hcancelled.symm.trans hdone

/-- A task that has a result at the end of a run has come to it in one of its turns, its last
one. -/
theorem exists_last_turn {result : TaskResult} (h : Attended s) (hs : s.stage? i = some stage)
    (hopen : stage.hasEnded = false) (he : ∀ e ∈ events, e.isInside)
    (hend : (s.run events).stage? i = some (.done result)) :
    ∃ (ran rest : List Event) (old : Stage), events = ran ++ .resume i :: rest ∧
      (s.run ran).stage? i = some old ∧ old.hasEnded = false ∧
      ((s.run ran).resume i).stage? i = some (.done result) := by
  induction events generalizing s stage with
  | nil =>
    cases hs.symm.trans hend
    cases hopen
  | cons e events ih =>
    rw [List.forall_mem_cons] at he
    obtain ⟨next, hnext⟩ := Option.isSome_iff_exists.1 (isSome_stage?_apply h hs e)
    -- The first event behind which the task has ended is its last turn.
    by_cases hended : next.hasEnded
    · -- It stays as it is then.
      have hlast := ended_run hnext hended events
      have hdone : next = .done result := Option.some.inj (hlast.symm.trans hend)
      subst hdone
      have hi : e.actor? = some i := by
        by_contra hne
        cases hs.symm.trans ((stage?_apply_of_ne hs hne).symm.trans hnext ▸ hs)
        cases (stage?_apply_of_ne hs hne).symm.trans hnext
        cases hopen
      cases e with
      | resume j =>
        cases hi
        exact ⟨[], events, stage, rfl, hs, hopen, hnext⟩
      | cancel j =>
        cases hi
        exact absurd hnext (stage?_cancel_ne_done hs hopen)
      | _ => cases hi
    · obtain ⟨ran, rest, old, hevents, hold, hopen', hturn⟩ :=
        ih (attended_apply h (Event.putsNothing_of_isInside he.1)) hnext (by simpa using hended)
          he.2 hend
      exact ⟨e :: ran, rest, old, congrArg (e :: ·) hevents, hold, hopen', hturn⟩

/-! ## Main modules -/

/-- In its next turn the task ends with the main module of a request, as it is served from the
record that a call of its own has returned by then. -/
def ServesFrom (s : Session) (i : Nat) (r : Request) (f : Filed) : Prop :=
  (s.resume i).stage? i = some (.done (.content (some (mainCode s.options r f.record)))) ∧
  ∃ n code, s.Owns i n ∧
    (s.resume i).bench.calls[n]? = some ⟨r.key, servingIntent r code, .returned (.record f)⟩

/-- Where a record is, on the workbench behind the turn in which a task is served from it. -/
inductive Delivers (s : Session) (i : Nat) (r : Request) (f : Filed) (z : Workbench) : Prop where
  /-- It is in its slot. -/
  | stored (hready : z.cache.content? r.key = some (.ready f))
  /-- The task had joined the compile of it, and was told. -/
  | told {n t : Nat} {code : String} (hold : s.stage? i = some (.serving r code n none))
      (hcall : s.bench.calls[n]? = some ⟨r.key, servingIntent r code, .waiting t⟩)
      (ha : s.bench.cache.announcement? t = some (.record f)) (hcache : z.cache = s.bench.cache)
  /-- It was computed under a ticket that the slot is not pending under any more. -/
  | superseded {n t : Nat} {code : String} {d : Option Filed}
      (hcall : s.bench.calls[n]? = some ⟨r.key, servingIntent r code, .computing t d⟩)
      (hlost : s.bench.cache.isPending r.key t = false) (hf : f.ticket? = some t)
      (hcontent : z.cache.content? r.key = s.bench.cache.content? r.key)

@[simp] theorem bench_endServing (y : Session) (i : Nat) (r : Request) (n : Nat) :
    (y.endServing i r n).bench = y.bench := by
  unfold endServing
  split <;> rfl

/-- A task that has not ended is served from the record that its call has returned. -/
theorem record_of_endServing {intent : Intent} {a : Answer Filed} (hs : y.stage? i = some stage)
    (hopen : stage.hasEnded = false)
    (hcall : y.bench.calls[n]? = some ⟨r.key, intent, .returned a⟩)
    (hend : (y.endServing i r n).stage? i = some (.done (.content (some js)))) :
    ∃ f, a = .record f ∧ js = mainCode y.options r f.record := by
  have hthere : (y.stage? i).isSome := Option.isSome_of_eq_some hs
  -- A task that stays as it is has not ended, so it was not served here.
  have hstays : y.stage? i ≠ some (.done (.content (some js))) := by
    intro hdone
    cases hs.symm.trans hdone
    cases hopen
  have hanswer : y.bench.answer? n = some (a.map Filed.record) := by
    simp only [answer?, hcall, Option.bind_some, Call.answer?]
  unfold endServing at hend
  rw [hanswer] at hend
  cases a with
  | record f =>
    simp only [Answer.map, endTask, stage?_setStage_self hthere] at hend
    cases hend
    exact ⟨f, rfl, rfl⟩
  | failure e =>
    simp only [Answer.map, endTask, stage?_setStage_self hthere] at hend
    cases hend
  | recomputed previous f => exact absurd hend hstays
  | absent => exact absurd hend hstays

/-- The end of a compile of a task's own: the record that it is served from. -/
theorem record_of_finishServing {input : CompileInput} {result : CompileResult}
    (hs : y.stage? i = some stage) (hopen : stage.hasEnded = false)
    (hcall : y.bench.calls[n]? = some ⟨r.key, servingIntent r code, .computing t d⟩)
    (hend : (y.finishServing i r n input result).stage? i = some (.done (.content (some js)))) :
    ∃ f, js = mainCode y.options r f.record ∧ f.ticket? = some t ∧
      (y.finishServing i r n input result).bench.calls[n]? =
        some ⟨r.key, servingIntent r code, .returned (.record f)⟩ ∧
      (y.finishServing i r n input result).bench.cache.content? r.key =
        if y.bench.cache.isPending r.key t then some (.ready f)
        else y.bench.cache.content? r.key := by
  have hs' (outcome : Except BuildError Record) :
      ((y.judge input result).1.act (.finish n outcome)).stage? i = some stage := hs
  simp only [finishServing, judge, bench_endServing, bench_act, bench_say] at hend ⊢
  -- A compile that fails ends the task with the error, so there is no content.
  cases result with
  | ok output =>
    obtain ⟨hreturned, hcontent⟩ := apply_finish_of_computing hcall rfl
      (y.options.toRecord input output)
    obtain ⟨f, hf, hjs⟩ := record_of_endServing (hs' _) hopen hreturned hend
    cases hf
    exact ⟨_, hjs, rfl, hreturned, hcontent⟩
  | error failure =>
    let e : BuildError := .compile ⟨input.file, failure⟩
    have hreturned : (y.bench.apply (.finish n (.error e))).calls[n]? =
        some ⟨r.key, servingIntent r code, .returned (.failure e)⟩ := by
      simp [Workbench.apply, hcall, Call.finish, calls_update hcall, Call.atPhase]
    obtain ⟨f, hf, _⟩ := record_of_endServing (hs' _) hopen hreturned hend
    cases hf

/-- What is known of a task that serves a main module and ends in this turn. -/
def Served (s : Session) (i : Nat) (r : Request) (js : Code) (y : Session) : Prop :=
  ∃ f, js = mainCode s.options r f.record ∧ s.Delivers i r f y.bench ∧
    ∃ n code, s.Owns i n ∧
      y.bench.calls[n]? = some ⟨r.key, servingIntent r code, .returned (.record f)⟩

/-- A task for a main module whose call computes for a slot that is pending under its ticket. If it
ends in this turn, the compile that it begins has ended at once. -/
theorem served_of_computing (hopen : old.hasEnded = false) (hy : y.stage? i = some old)
    (hoptions : y.options = s.options) (hown : s.Owns i n)
    (hcall : y.bench.calls[n]? = some ⟨r.key, servingIntent r code, .computing t d⟩)
    (hpending : y.bench.cache.isPending r.key t)
    (hend : (y.advanceServing i r code n).stage? i = some (.done (.content (some js)))) :
    Served s i r js (y.advanceServing i r code n) := by
  have hadvance : y.advanceServing i r code n =
      (y.startCompile r.file code r.target).1.progressServing i r code n
        (y.startCompile r.file code r.target).2.1
        (y.startCompile r.file code r.target).2.2 := by
    simp only [advanceServing, phase?, hcall, Option.map_some]
  have hstarted : (y.startCompile r.file code r.target).1.stage? i = some old := hy
  rw [hadvance] at hend ⊢
  generalize (y.startCompile r.file code r.target).2.2 = progress at hend ⊢
  cases progress with
  | suspended suspension =>
    rw [progressServing, stage?_setStage_self (Option.isSome_of_eq_some hstarted)] at hend
    cases hend
  | ended result =>
    rw [progressServing] at hend ⊢
    obtain ⟨f, hjs, _, hcalled, hcontent⟩ :=
      record_of_finishServing (t := t) (d := d) hstarted hopen hcall hend
    rw [bench_startCompile, hpending, if_pos rfl] at hcontent
    refine ⟨f, ?_, .stored hcontent, n, code, hown, hcalled⟩
    rw [hjs, ← hoptions]
    rfl

/-- A task for a main module whose call has just taken a turn. -/
theorem served_advanceServing (hs : s.stage? i = some old) (hopen : old.hasEnded = false)
    (hy : y.stage? i = some old) (hoptions : y.options = s.options) (hown : s.Owns i n)
    {w : Workbench} {call : Call} {c : Cache} {p : Phase}
    (hbench : y.bench = w.update n c (call.atPhase p))
    (hcall : w.calls[n]? = some call) (hkey : call.key = r.key)
    (hintent : call.intent = servingIntent r code) (hcache : w.cache = s.bench.cache)
    (hturn : Turn w.cache call n (.resume n) c p)
    (hphase : call.phase = .arriving ∨ old = .serving r code n none ∧
      s.bench.calls[n]? = some call ∧ ∃ t, call.phase = .waiting t)
    (hend : (y.advanceServing i r code n).stage? i = some (.done (.content (some js)))) :
    Served s i r js (y.advanceServing i r code n) := by
  obtain ⟨key, intent, phase⟩ := call
  cases hkey
  cases hintent
  have hnow : y.bench.calls[n]? = some ⟨r.key, servingIntent r code, p⟩ := by
    rw [hbench, calls_update hcall, if_pos rfl]
    rfl
  have hthere : (y.stage? i).isSome := Option.isSome_of_eq_some hy
  -- The task ends in this turn, so its call does not wait behind it.
  have hnot (waits : ∀ a, p ≠ .returned a) (rests : ∀ t d, p ≠ .computing t d) : False := by
    unfold advanceServing at hend
    simp only [phase?, hnow, Option.map_some] at hend
    split at hend
    · next hp => exact rests _ _ (Option.some.inj hp)
    · next hp => exact waits _ (Option.some.inj hp)
    · rw [stage?_setStage_self hthere] at hend
      cases hend
  have hreturned {a : Answer Filed} (hp : p = .returned a)
      (hdelivers : ∀ f, a = .record f → s.Delivers i r f y.bench) :
      Served s i r js (y.advanceServing i r code n) := by
    subst hp
    have hadvance : y.advanceServing i r code n = y.endServing i r n := by
      simp only [advanceServing, phase?, hnow, Option.map_some]
    rw [hadvance] at hend ⊢
    obtain ⟨f, rfl, hjs⟩ := record_of_endServing hy hopen hnow hend
    rw [hoptions] at hjs
    rw [Served, bench_endServing]
    exact ⟨f, hjs, hdelivers f rfl, n, code, hown, hnow⟩
  have hsame : y.bench.cache = c := by
    rw [hbench]
    rfl
  cases hturn with
  | rest hidle =>
    -- A new call never rests, and an old one waits on.
    rcases hphase with harrives | ⟨_, _, t, hwaits⟩
    · have hruns := hidle rfl
      simp only at harrives
      simp [Call.isRunnable, harrives] at hruns
    · simp only at hwaits
      exact (hnot (by simp [hwaits]) (by simp [hwaits])).elim
  | hit hlook hready =>
    refine hreturned rfl fun f hf => .stored ?_
    cases hf
    rw [hsame]
    exact hready
  | miss hlook hvacant hintent => cases hintent
  | wait =>
    exfalso
    refine hnot (fun a ha => ?_) (fun t d hp => ?_)
    · cases ha
    · cases hp
  | @lead d hlook hfree hintent =>
    refine served_of_computing hopen hy hoptions hown hnow ?_ hend
    rw [hsame]
    exact Cache.isPending_iff.2 ⟨d, (Cache.content?_issue _ _ _ _).trans (if_pos rfl)⟩
  | @hear t a answer hwaits ha hheard =>
    refine hreturned rfl fun f hf => ?_
    subst hf
    rcases hphase with harrives | ⟨rfl, hcalled, _⟩
    · rw [harrives] at hwaits
      cases hwaits
    · simp only at hwaits
      subst hwaits
      rcases Call.heard?_eq_some_iff.1 hheard with ⟨_, ⟨g, rfl, _, hg⟩ | ⟨e, _, he⟩⟩
      · cases hg
        rw [hcache] at ha hsame
        exact .told hs hcalled ha hsame
      · cases he

/-- In the turn in which a task ends with a main module, the record behind it is in its slot, or was
told to the task, or was superseded. -/
theorem delivers_resume (h : Attended s) (hs : s.stage? i = some old) (hopen : old.hasEnded = false)
    (hasks : s.Asks old r code)
    (hend : (s.resume i).stage? i = some (.done (.content (some js)))) :
    ∃ f, js = mainCode s.options r f.record ∧ s.ServesFrom i r f ∧
      s.Delivers i r f (s.resume i).bench := by
  suffices hserved : Served s i r js (s.resume i) by
    obtain ⟨f, rfl, hdelivers, hcall⟩ := hserved
    exact ⟨f, rfl, ⟨hend, hcall⟩, hdelivers⟩
  have hstart {y : Session} (hy : y.stage? i = some old) (hoptions : y.options = s.options)
      (hbench : y.bench = s.bench)
      (hend : (y.startServing i r code).stage? i = some (.done (.content (some js)))) :
      Served s i r js (y.startServing i r code) := by
    have hmade : (y.bench.apply (.make r.key (servingIntent r code))).calls[y.bench.calls.length]? =
        some ⟨r.key, servingIntent r code, .arriving⟩ := by simp [Workbench.apply]
    obtain ⟨c, p, hresumed, hturn⟩ := exists_turn (m := .resume _) rfl hmade
    have hown : s.Owns i y.bench.calls.length := .inl (Nat.le_of_eq (by rw [hbench]))
    have hcache : (y.bench.apply (.make r.key (servingIntent r code))).cache = s.bench.cache := by
      rw [hbench]
      rfl
    exact served_advanceServing (y := (y.call r.key (servingIntent r code)).1) hs hopen hy hoptions
      hown hresumed hmade rfl rfl hcache hturn (.inl rfl) hend
  rw [resume_eq hs] at hend ⊢
  cases hasks with
  | @transform id code target r hparse hmain =>
    have hbegin : s.resumeFrom i (.fresh (.transform id code target)) =
        (s.say (readingNotes s.options id target)).startServing i r code :=
      (resume_eq hs).symm.trans (resume_transform hs hparse hmain)
    rw [hbegin] at hend ⊢
    exact hstart hs rfl rfl hend
  | @request r code hmain =>
    have hbegin : s.resumeFrom i (.fresh (.serve r (some code))) = s.startServing i r code := by
      simp only [resumeFrom, begin, startRequest, hmain]
    rw [hbegin] at hend ⊢
    exact hstart hs rfl rfl hend
  | source hread =>
    have hbegin : s.resumeFrom i (.readingSource r) = s.startServing i r code := by
      simp only [resumeFrom, sourceRead, hread]
    rw [hbegin] at hend ⊢
    exact hstart hs rfl rfl hend
  | @waiting r code n making =>
    have hown : s.Owns i n := .inr ⟨_, hs, rfl⟩
    cases making with
    | none =>
      obtain ⟨t, hcall⟩ := h.fits hs
      obtain ⟨c, p, hresumed, hturn⟩ := exists_turn (m := .resume n) rfl hcall
      exact served_advanceServing (y := s.act (.resume n)) hs hopen hs rfl hown hresumed hcall rfl
        rfl rfl hturn (.inr ⟨rfl, hcall, t, rfl⟩) hend
    | some c =>
      obtain ⟨⟨t, d, hcall⟩, _⟩ := h.fits hs
      simp only [resumeFrom] at hend ⊢
      generalize s.compiler.resume c.input c.suspension = progress at hend ⊢
      cases progress with
      | suspended suspension =>
        simp only [progressServing] at hend
        rw [stage?_setStage_self (Option.isSome_of_eq_some hs)] at hend
        cases hend
      | ended result =>
        obtain ⟨f, hjs, hf, hcalled, hcontent⟩ := record_of_finishServing hs hopen hcall hend
        refine ⟨f, hjs, ?_, n, code, hown, hcalled⟩
        -- Its own compile is stored unless the slot was taken from it.
        by_cases hp : s.bench.cache.isPending r.key t
        · exact .stored (hcontent.trans (if_pos hp))
        · exact .superseded hcall (by simpa using hp) hf (hcontent.trans (if_neg hp))

/-- A task that ends with a main module has asked for it. -/
theorem asks_of_served (h : Attended s) (hs : s.stage? i = some old) (hopen : old.hasEnded = false)
    (hapart : old.isApart = false)
    (hend : (s.resume i).stage? i = some (.done (.content (some js)))) :
    ∃ r code, s.Asks old r code := by
  rcases turned_resume h i with ⟨old', hold, hturned⟩ | hsame
  · cases hs.symm.trans hold
    generalize s.resume i = s' at hturned hend
    cases hturned with
    | @intro y new hworked hfits hown hnext =>
      cases (hworked.stage?_setStage hs new).symm.trans hend
      generalize hresult : Stage.done (.content (some js)) = last at hnext
      -- Only a task that asks for a main module is served one.
      cases hnext with
      | served hasks => exact ⟨_, _, hasks⟩
      | apart hapart' => exact absurd hapart' (by simp [hapart])
      | passed => cases hresult
      | serving => cases hresult
      | cancelled => cases hresult
  · rw [hsame, hs] at hend
    cases hend
    cases hopen

/-- A transform that ends with code in its turn is served from a record. -/
theorem transform_delivers {id : String} {Q : Request → Except BuildError Record → Prop}
    (h : Attended s) (hs : s.stage? i = some old) (hopen : old.hasEnded = false)
    (ht : Transforms s.options id code target Q old)
    (hend : (s.resume i).stage? i = some (.done (.content (some js)))) :
    ∃ r f, parse s.options id target = some r ∧ js = mainCode s.options r f.record ∧
      s.ServesFrom i r f ∧ s.Delivers i r f (s.resume i).bench := by
  obtain ⟨r, code', hasks⟩ := asks_of_served h hs hopen ht.isApart hend
  obtain ⟨f, hjs, hserves, hdelivers⟩ := delivers_resume h hs hopen hasks hend
  exact ⟨r, f, (ht.asks hasks).1, hjs, hserves, hdelivers⟩

/-- Where a transform has ended with code at the end of a run, a record was delivered to it in its
last turn. -/
theorem transform_delivered {id : String} (h : Attended s)
    (hs : s.stage? i = some (.fresh (.transform id code target)))
    (he : ∀ e ∈ events, e.isInside)
    (hend : (s.run events).stage? i = some (.done (.content (some js)))) :
    ∃ turns rest r f, events = turns ++ .resume i :: rest ∧ parse s.options id target = some r ∧
      js = mainCode s.options r f.record ∧ (s.run turns).ServesFrom i r f ∧
      (s.run turns).Delivers i r f ((s.run turns).resume i).bench := by
  -- The text is served in the last turn that the task takes.
  obtain ⟨turns, rest, old, hevents, hold, hopen, hturn⟩ := exists_last_turn h hs rfl he hend
  have hputs : ∀ e ∈ turns, e.putsNothing := by
    intro e hmem
    refine Event.putsNothing_of_isInside (he e ?_)
    rw [hevents]
    exact List.mem_append_left _ hmem
  obtain ⟨stage, hstage, ht⟩ := transforms_run (Q := fun _ _ => True) h hs .fresh hputs
    fun _ _ _ _ _ _ _ _ _ => trivial
  cases hold.symm.trans hstage
  rw [← options_run h hputs] at ht
  obtain ⟨r, f, hparse, hjs, hserves, hdelivers⟩ :=
    transform_delivers (attended_run h hputs) hold hopen ht hturn
  rw [options_run h hputs] at hparse hjs
  exact ⟨turns, rest, r, f, hevents, hparse, hjs, hserves, hdelivers⟩

/-! ## Stylesheets -/

/-- What a turn makes of a task for the stylesheet of a request. -/
inductive Styled (s : Session) (i : Nat) (q : Request) : Stage → Prop where
  /-- It waits for a ticket, one that it has found or one that nothing is known of yet. -/
  | waiting {n : Nat} (hown : s.Owns i n)
      (hwaits : (∃ t d, s.bench.cache.content? q.key = some (.pending t d)) ∨
        ∃ t, s.stage? i = some (.styling q n) ∧
          s.bench.calls[n]? = some ⟨q.key, .settle, .waiting t⟩ ∧
          s.bench.cache.announcement? t = none) : Styled s i q (.styling q n)
  | found {f : Filed} (hready : s.bench.cache.content? q.key = some (.ready f)) :
      Styled s i q (.done (.content f.record.css))
  | told {n t : Nat} {f : Filed} (hold : s.stage? i = some (.styling q n))
      (hcall : s.bench.calls[n]? = some ⟨q.key, .settle, .waiting t⟩)
      (ha : s.bench.cache.announcement? t = some (.record f)) :
      Styled s i q (.done (.content f.record.css))
  | refused {n t : Nat} {e : BuildError} (hold : s.stage? i = some (.styling q n))
      (hcall : s.bench.calls[n]? = some ⟨q.key, .settle, .waiting t⟩)
      (ha : s.bench.cache.announcement? t = some (.failure e)) :
      Styled s i q (.done (.refused (.build e)))
  /-- There is neither a record nor a ticket. -/
  | absent (hvacant : s.bench.cache.content? q.key = none) :
      Styled s i q (.done (.refused (.styleTooEarly q.file)))

/-- The task at a stage asks for the stylesheet of a request. -/
inductive AsksStyle (o : Options) (sid : String) (target : Target) (q : Request) :
    Stage → Prop where
  | fresh (hparse : parse o sid target = some q) (hstyle : q.route = .style) :
      AsksStyle o sid target q (.fresh (.load sid target))
  | waiting {n : Nat} : AsksStyle o sid target q (.styling q n)

/-- A task for a stylesheet whose call has just been resumed. -/
theorem styled_advanceStyling (hthere : (y.stage? i).isSome) (hown : s.Owns i n) {w : Workbench}
    {p₀ p : Phase} (hcache : w.cache = s.bench.cache)
    (hnow : y.bench.calls[n]? = some ⟨q.key, .settle, p⟩)
    (hsettles : Settles w ⟨q.key, .settle, p₀⟩ p)
    (hwaits : ∀ t, p₀ = .waiting t → s.stage? i = some (.styling q n) ∧
      s.bench.calls[n]? = some ⟨q.key, .settle, p₀⟩) :
    ∃ new, (y.advanceStyling i q n).stage? i = some new ∧ s.Styled i q new := by
  have hset (z : Session) (hz : z.tasks = y.tasks) (new : Stage) :
      (z.setStage i new).stage? i = some new := by
    refine stage?_setStage_self ?_ new
    rw [Session.stage?, hz]
    exact hthere
  -- One case for each way in which a call that settles goes on.
  cases hsettles with
  | found hready =>
    simp only [advanceStyling, phase?, hnow, Option.map_some]
    rw [hcache] at hready
    exact ⟨_, hset _ rfl _, .found hready⟩
  | absent hvacant =>
    simp only [advanceStyling, phase?, hnow, Option.map_some]
    rw [hcache] at hvacant
    exact ⟨_, hset _ rfl _, .absent hvacant⟩
  | told hphase ha =>
    simp only [advanceStyling, phase?, hnow, Option.map_some]
    obtain ⟨hold, hcall⟩ := hwaits _ hphase
    cases hphase
    rw [hcache] at ha
    exact ⟨_, hset _ rfl _, .told hold hcall ha⟩
  | refused hphase ha =>
    simp only [advanceStyling, phase?, hnow, Option.map_some]
    obtain ⟨hold, hcall⟩ := hwaits _ hphase
    cases hphase
    rw [hcache] at ha
    exact ⟨_, hset _ rfl _, .refused hold hcall ha⟩
  | waits hpending =>
    simp only [advanceStyling, phase?, hnow, Option.map_some]
    rw [hcache] at hpending
    exact ⟨_, hset _ rfl _, .waiting hown (.inl ⟨_, _, hpending⟩)⟩
  | rests hphase hnone =>
    simp only [advanceStyling, phase?, hnow, Option.map_some]
    obtain ⟨hold, hcall⟩ := hwaits _ hphase
    cases hphase
    rw [hcache] at hnone
    exact ⟨_, hset _ rfl _, .waiting hown (.inr ⟨_, hold, hcall, hnone⟩)⟩

/-- A task that begins to ask for a stylesheet. -/
theorem styled_startStyling (hthere : (y.stage? i).isSome) (hbench : y.bench = s.bench) :
    ∃ new, (y.startStyling i q).stage? i = some new ∧ s.Styled i q new := by
  have hmade : (y.bench.apply (.make q.key .settle)).calls[y.bench.calls.length]? =
      some ⟨q.key, .settle, .arriving⟩ := by simp [Workbench.apply]
  obtain ⟨p, hnow, hsettles⟩ := settles_resume hmade rfl (.inl rfl)
  have hown : s.Owns i y.bench.calls.length := .inl (Nat.le_of_eq (by rw [hbench]))
  have hcache : (y.bench.apply (.make q.key .settle)).cache = s.bench.cache := by
    rw [hbench]
    rfl
  refine styled_advanceStyling (y := (y.call q.key .settle).1) hthere hown hcache hnow hsettles ?_
  intro t harrives
  cases harrives

theorem styled_resume (h : Attended s) (hs : s.stage? i = some old)
    (hasks : AsksStyle s.options sid target q old) :
    ∃ new, (s.resume i).stage? i = some new ∧ s.Styled i q new := by
  have hthere : (s.stage? i).isSome := Option.isSome_of_eq_some hs
  cases hasks with
  -- The call is made in the first turn, and looked at again in each later one.
  | fresh hparse hstyle =>
    rw [resume_load hs hparse hstyle]
    exact styled_startStyling (y := s.say (readingNotes s.options sid target)) hthere rfl
  | @waiting n =>
    rw [resume_eq hs]
    obtain ⟨t, hcall⟩ := h.fits hs
    obtain ⟨p, hnow, hsettles⟩ := settles_resume hcall rfl (.inr ⟨t, rfl⟩)
    exact styled_advanceStyling (y := s.act (.resume n)) hthere (.inr ⟨_, hs, rfl⟩) rfl hnow
      hsettles fun _ _ => ⟨hs, hcall⟩

/-- A task that loads something else than a stylesheet ends at once. -/
theorem startLoad_of_other {target : Target}
    (hother : ∀ r, parse s.options sid target = some r → r.route ≠ .style) :
    s.startLoad i sid target =
      (s.say (readingNotes s.options sid target)).endTask i (.content none) := by
  have hparse : parse (s.say (readingNotes s.options sid target)).options sid target =
      parse s.options sid target := rfl
  unfold startLoad
  cases hr : parse s.options sid target with
  | none => simp only [hparse, hr]
  | some r => simp only [hparse, hr, if_neg (hother r hr)]

/-- How far a task can have come that was started to load a stylesheet, if its call is not made
before the call with a given number and its result has a property. -/
inductive Loads (o : Options) (sid : String) (target : Target) (q : Request) (first : Nat)
    (P : TaskResult → Prop) : Stage → Prop where
  | fresh (hparse : parse o sid target = some q) (hstyle : q.route = .style) :
      Loads o sid target q first P (.fresh (.load sid target))
  | waiting {n : Nat} (hfirst : first ≤ n) : Loads o sid target q first P (.styling q n)
  | ended {result : TaskResult} (hP : P result) : Loads o sid target q first P (.done result)
  | cancelled : Loads o sid target q first P .cancelled

variable {first : Nat} {P : TaskResult → Prop}

/-- What one event makes of a task for a stylesheet. -/
theorem loads_apply {e : Event} (h : Attended s) (he : e.isInside) (hs : s.stage? i = some stage)
    (hloads : Loads s.options sid target q first P stage) (hfirst : first ≤ s.bench.calls.length)
    (hP : ∀ result, e = .resume i → (∀ n, s.stage? i = some (.styling q n) → first ≤ n) →
      s.Styled i q (.done result) → P result) :
    ∃ new, (s.apply e).stage? i = some new ∧ Loads s.options sid target q first P new := by
  by_cases hended : stage.hasEnded
  · exact ⟨stage, ended_apply hs hended e, hloads⟩
  by_cases hi : e.actor? = some i
  · cases e with
    | resume j =>
      cases hi
      -- A call that it has was made behind the given number, and so is one that it makes now.
      have hcalls (n : Nat) (hn : s.stage? i = some (.styling q n)) : first ≤ n := by
        cases hs.symm.trans hn
        cases hloads with
        | waiting hle => exact hle
      have hasks : AsksStyle s.options sid target q stage := by
        cases hloads with
        | fresh hparse hstyle => exact .fresh hparse hstyle
        | waiting => exact .waiting
        | ended => exact absurd rfl hended
        | cancelled => exact absurd rfl hended
      obtain ⟨new, hnew, hstyled⟩ := styled_resume h hs hasks
      refine ⟨new, hnew, ?_⟩
      cases new with
      | done result => exact .ended (hP result rfl hcalls hstyled)
      | styling q' n =>
        cases hstyled with
        | waiting hown =>
          rcases hown with hnew | ⟨old, hold, hn⟩
          · exact .waiting (Nat.le_trans hfirst hnew)
          · cases hs.symm.trans hold
            cases hloads with
            | fresh => cases hn
            | waiting hle =>
              cases hn
              exact .waiting hle
            | ended => cases hn
            | cancelled => cases hn
      | _ => cases hstyled
    | cancel j =>
      cases hi
      change ∃ new, (s.cancel i).stage? i = some new ∧ _
      rcases s.stage?_cancel i with hsame | hcancelled
      · rw [hsame]
        exact ⟨stage, hs, hloads⟩
      · exact ⟨.cancelled, hcancelled, .cancelled⟩
    | _ => cases hi
  · exact ⟨stage, stage?_apply_of_ne hs hi, hloads⟩

/-- What a run makes of a task for a stylesheet. -/
theorem loads_run (h : Attended s) (he : ∀ e ∈ events, e.isInside) (hs : s.stage? i = some stage)
    (hloads : Loads s.options sid target q first P stage) (hfirst : first ≤ s.bench.calls.length)
    (hP : ∀ (ran rest : List Event) (result : TaskResult), events = ran ++ .resume i :: rest →
      (∀ n, (s.run ran).stage? i = some (.styling q n) → first ≤ n) →
      (s.run ran).Styled i q (.done result) → P result) :
    ∃ new, (s.run events).stage? i = some new ∧ Loads s.options sid target q first P new := by
  induction events generalizing s stage with
  | nil => exact ⟨stage, hs, hloads⟩
  | cons e events ih =>
    rw [List.forall_mem_cons] at he
    have hputs := Event.putsNothing_of_isInside he.1
    obtain ⟨next, hnext, hloads'⟩ := loads_apply h he.1 hs hloads hfirst
      fun result heq => hP [] events result (by rw [heq]; rfl)
    have hfirst' : first ≤ (s.apply e).bench.calls.length := by
      obtain ⟨moves, hmoves⟩ := bench_apply s e
      rw [hmoves]
      exact Nat.le_trans hfirst (length_calls_le_run _ moves)
    -- What the later events ask of the result is what the whole run asks, one event later.
    rw [← options_apply h e] at hloads' ⊢
    refine ih (attended_apply h hputs) he.2 hnext hloads' hfirst' ?_
    intro ran rest result hevents
    exact hP (e :: ran) rest result (congrArg (e :: ·) hevents)

end Session

end HotComponents
