import HotComponents.Proofs.Cache.TurnsLeft

/-!
# All calls return

Calls take turns, in rounds: a round takes the calls that can go on when it begins and gives each of
them a turn. A call that computes may be suspended in its compute as often as it likes, as long as
that ends at last, and between two turns anything may happen from outside: records are put in and
dropped, and calls are given up. After finitely many rounds every call that was not given up has
returned.

A call that waits does so quietly. It looks at its slot again only once the compute that it waited
for has ended in nothing that it takes, and when it has looked it cannot go on by itself.

* `turnsLeft_takeTurns`: a round in which a call can go on lowers the bound on turns;
* `ended_of_still`: where no call computes and none can go on, all have ended;
* `waiting_loops_end`: rounds come to an end, and calls do not loop in between.
-/

namespace HotComponents

/-- The move comes from outside the calls: it changes the cache directly, or a call is given up. -/
def Move.isAside : Move → Bool
  | cancel _ => true
  | m => m.isEdit

/-- What is announced is nothing that the call takes: there is no result, or none that will do. -/
def Call.Declines (call : Call) (a : Announcement) : Prop :=
  a = .abandoned ∨ call.intent = .recompute ∨
    ∃ f reuse, a = .record f ∧ call.intent = .obtain reuse ∧ reuse.accepts f.record = false

/-- A call declines what it does not take when it hears it. -/
theorem Call.declines_of_heard? {call : Call} {a : Announcement} (h : call.heard? a = none) :
    call.Declines a := by
  unfold heard? at h
  split at h
  · next hintent => exact .inr (.inl hintent)
  · exact .inl rfl
  · cases h
  · cases h
  · next reuse f hintent =>
    split at h
    · cases h
    · next hrefuses => exact .inr (.inr ⟨f, reuse, rfl, hintent, by simpa using hrefuses⟩)

/-- No call is made by what happens aside. -/
theorem Move.makesNone_of_isAside {m : Move} (h : m.isAside) : m.makesNone := by
  cases m <;> first | rfl | cases h

namespace Workbench

variable {w w' x : Workbench} {m : Move} {i : Nat} {turns : List Nat} {before : List Move}

/-- A call takes its turn: it goes on as far as it can. If it is inside its compute by then, the
compute is suspended, once more perhaps, or it ends. -/
inductive TakesTurn (w : Workbench) (i : Nat) : Workbench → Prop where
  | suspended : TakesTurn w i (w.apply (.resume i))
  | ended (result : Except BuildError Record) :
      TakesTurn w i ((w.apply (.resume i)).apply (.finish i result))

/-- Calls take their turns in order. Before each turn, and after the last one, anything may happen
from outside. -/
inductive TakeTurns : Workbench → List Nat → Workbench → Prop where
  | done (w : Workbench) : TakeTurns w [] w
  | turn {w x y : Workbench} {i : Nat} {turns : List Nat} (hturn : TakesTurn w i x)
      (hrest : TakeTurns x turns y) : TakeTurns w (i :: turns) y
  | aside {w y : Workbench} {m : Move} {turns : List Nat} (hm : m.isAside)
      (hrest : TakeTurns (w.apply m) turns y) : TakeTurns w turns y

/-- One round: the calls that can go on when it begins take their turns, in some order, and so do
calls that compute. -/
def Round (w w' : Workbench) : Prop :=
  ∃ turns, (∀ i, w.isRunnable i → i ∈ turns) ∧ TakeTurns w turns w'

/-! ## Rounds as runs -/

/-- A turn is a resumption and some more moves, none of which makes a call. -/
theorem TakesTurn.exists_run (h : TakesTurn w i x) :
    ∃ moves, (∀ m ∈ moves, m.makesNone) ∧ x = (w.apply (.resume i)).run moves := by
  cases h with
  | suspended => exact ⟨[], by simp, rfl⟩
  | ended result => exact ⟨[.finish i result], by simp [Move.makesNone], rfl⟩

/-- Turns one after the other are such a run. -/
theorem TakeTurns.exists_run (h : TakeTurns w turns w') :
    ∃ moves, (∀ m ∈ moves, m.makesNone) ∧ w' = w.run moves := by
  induction h with
  | done w => exact ⟨[], by simp, rfl⟩
  | @turn w x y i turns hturn _ ih =>
    obtain ⟨first, hfirst, rfl⟩ := hturn.exists_run
    obtain ⟨rest, hrest, rfl⟩ := ih
    refine ⟨.resume i :: (first ++ rest), ?_, ?_⟩
    · rw [List.forall_mem_cons, List.forall_mem_append]
      exact ⟨rfl, hfirst, hrest⟩
    · rw [run_cons, run_append]
  | @aside w y m turns hm _ ih =>
    obtain ⟨rest, hrest, rfl⟩ := ih
    exact ⟨m :: rest, List.forall_mem_cons.2 ⟨Move.makesNone_of_isAside hm, hrest⟩, rfl⟩

/-- A call that takes its turn among others is resumed somewhere on the way. -/
theorem TakeTurns.exists_turn (h : TakeTurns w turns w') (hi : i ∈ turns) :
    ∃ first rest, (∀ m ∈ first, m.makesNone) ∧ (∀ m ∈ rest, m.makesNone) ∧
      w' = ((w.run first).apply (.resume i)).run rest := by
  -- On the turns: the call's own turn is the first one, or comes among the others.
  induction h with
  | done => cases hi
  | @turn w x y j turns hturn hrest ih =>
    obtain ⟨own, hown, rfl⟩ := hturn.exists_run
    rcases List.mem_cons.1 hi with rfl | hi
    · obtain ⟨rest, hnone, rfl⟩ := hrest.exists_run
      refine ⟨[], own ++ rest, by simp, List.forall_mem_append.2 ⟨hown, hnone⟩, ?_⟩
      rw [run_append]
      rfl
    · obtain ⟨first, rest, hfirst, hnone, rfl⟩ := ih hi
      refine ⟨.resume j :: (own ++ first), rest, ?_, hnone, ?_⟩
      · rw [List.forall_mem_cons, List.forall_mem_append]
        exact ⟨rfl, hown, hfirst⟩
      · rw [run_cons, run_append]
  | @aside w y m turns hm _ ih =>
    obtain ⟨first, rest, hfirst, hnone, rfl⟩ := ih hi
    exact ⟨m :: first, rest, List.forall_mem_cons.2 ⟨Move.makesNone_of_isAside hm, hfirst⟩, hnone,
      rfl⟩

/-- In a run without new calls a call that can go on keeps being able to, unless the bound on turns
is lowered. -/
theorem runnable_run {moves : List Move} (hmoves : ∀ m ∈ moves, m.makesNone)
    (h : (after before).isRunnable i) :
    ((after before).run moves).turnsLeft < (after before).turnsLeft ∨
      ((after before).run moves).isRunnable i := by
  refine (turnsLeft_run before hmoves).imp_right fun hsame => ?_
  obtain ⟨call, hcall, hready⟩ := Option.any_eq_true _ _ |>.1 h
  refine Option.any_eq_true _ _ |>.2 ⟨call, hsame ▸ hcall, ?_⟩
  unfold Call.isRunnable at hready ⊢
  split at hready
  · rfl
  · -- What was announced for the ticket it waited for stays announced.
    obtain ⟨a, ha⟩ := Option.isSome_iff_exists.1 hready
    exact Option.isSome_of_eq_some (announcement?_run (sound_after before) ha moves)
  · cases hready

/-- Turns of which one is that of a call that can go on lower the bound. -/
theorem turnsLeft_takeTurns (h : TakeTurns (after before) turns w') (hi : i ∈ turns)
    (hrunnable : (after before).isRunnable i) : w'.turnsLeft < (after before).turnsLeft := by
  obtain ⟨first, rest, hfirst, hrest, rfl⟩ := h.exists_turn hi
  have hresume : ((after before).run first).apply (.resume i) =
      after (before ++ first ++ [.resume i]) := by rw [after_append, after_append]; rfl
  have hbehind := turnsLeft_run_le (before ++ first ++ [.resume i]) hrest
  rw [← hresume] at hbehind
  have hturn : (((after before).run first).apply (.resume i)).turnsLeft ≤
      ((after before).run first).turnsLeft := by
    rw [← after_append]
    exact turnsLeft_apply_le (before ++ first) rfl
  rcases runnable_run hfirst hrunnable with hlowers | hstays
  · exact (hbehind.trans hturn).trans_lt hlowers
  · -- It can still go on when its turn comes.
    rw [← after_append] at hstays
    have hlowers := turnsLeft_resume (sound_after _) (fun k => newest_after k _) hstays
    rw [after_append] at hlowers
    exact (hbehind.trans_lt hlowers).trans_le (turnsLeft_run_le before hfirst)

/-! ## Where no call can go on -/

/-- Where no call computes and none can go on, all have ended. -/
theorem ended_of_still {call : Call} (hidle : ∀ i, (after before).isComputing i = false)
    (hstill : ∀ i, (after before).isRunnable i = false)
    (hcall : (after before).calls[i]? = some call) : call.hasEnded := by
  have hnot : call.isRunnable (after before).cache = false := by
    simpa [isRunnable, hcall] using hstill i
  cases hphase : call.phase with
  | arriving =>
    rw [Call.isRunnable, hphase] at hnot
    cases hnot
  -- Each ticket is held or announced. A holder would compute, and with the announcement the call
  -- could go on.
  | waiting t =>
    rcases accounted_after before t ((sound_after before).waitingIssued hcall hphase) with
      ⟨j, leader, d, hleader, hleads⟩ | ha
    · have hcomputes := isComputing_of_phase hleader hleads
      rw [hidle j] at hcomputes
      cases hcomputes
    · simp only [Call.isRunnable, hphase] at hnot
      rw [hnot] at ha
      cases ha
  | computing t d =>
    have hcomputes := isComputing_of_phase hcall hphase
    rw [hidle i] at hcomputes
    cases hcomputes
  | returned a => simp [Call.hasEnded, hphase]
  | cancelled => simp [Call.hasEnded, hphase]

/-! ## One turn -/

/-- A call that was resumed cannot go on by itself. -/
theorem isRunnable_resume (hw : Sound w) (i : Nat) :
    (w.apply (.resume i)).isRunnable i = false := by
  cases hcall : w.calls[i]? with
  | none => simp [apply, isRunnable, hcall]
  | some call =>
    obtain ⟨p, hturn, hp⟩ := call.turn_resume w.cache i
    simp only [apply, hcall, hp]
    generalize (call.resume w.cache).1 = c at hturn
    rw [isRunnable, calls_update hcall, if_pos rfl]
    change (call.atPhase p).isRunnable c = false
    cases hturn with
    | rest hidle => exact hidle rfl
    | @wait t d hlook hpending =>
      -- The ticket that it has found is still held, so nothing is announced of it.
      obtain ⟨j, leader, hleader, _, hleads⟩ := hw.led hpending
      simp [Call.isRunnable, hw.unheard hleader hleads]
    | _ => rfl

/-- What a waiting call comes to when it is resumed. -/
theorem resume_of_waiting {call : Call} {t : Nat} (hw : Sound w)
    (hcall : w.calls[i]? = some call) (hphase : call.phase = .waiting t) :
    w.apply (.resume i) = w ∨
    ∃ a, w.cache.announcement? t = some a ∧
      (∀ (j : Nat) (leader : Call) (d : Option Filed), w.calls[j]? = some leader →
        leader.phase ≠ .computing t d) ∧
      ((∃ answer, w.apply (.resume i) = w.update i w.cache (call.atPhase (.returned answer))) ∨
        call.Declines a) := by
  have happly : w.apply (.resume i) =
      w.update i (call.resume w.cache).1 (call.resume w.cache).2.1 := by
    simp only [apply, hcall]
  cases ha : w.cache.announcement? t with
  | none =>
    left
    rw [happly]
    simp only [Call.resume, hphase, ha, update]
    obtain ⟨hlt, heq⟩ := List.getElem?_eq_some_iff.1 hcall
    rw [← heq, List.set_getElem_self hlt]
  | some a =>
    refine .inr ⟨a, rfl, ?_, ?_⟩
    · intro j leader d hleader hleads
      rw [hw.unheard hleader hleads] at ha
      cases ha
    · -- It was announced what became of the ticket, so nobody holds it any more. The call returns
      -- on it, or declines it.
      cases hheard : call.heard? a with
      | none => exact .inr (Call.declines_of_heard? hheard)
      | some answer =>
        refine .inl ⟨answer, ?_⟩
        rw [happly]
        simp only [Call.resume, hphase, ha, hheard]

/-! ## Rounds upon rounds -/

section Rounds

variable {S : Nat → Workbench}

/-- So is a round. -/
theorem Round.exists_run (h : Round w w') :
    ∃ moves, (∀ m ∈ moves, m.makesNone) ∧ w' = w.run moves :=
  h.elim fun _ hround => hround.2.exists_run

/-- Each state of the rounds is one that a run leads to. -/
theorem reached_of_rounds (hstart : S 0 = after before) (hrounds : ∀ n, Round (S n) (S (n + 1)))
    (n : Nat) : ∃ moves, S n = after moves := by
  induction n with
  | zero => exact ⟨before, hstart⟩
  | succ n ih =>
    obtain ⟨earlier, hearlier⟩ := ih
    obtain ⟨moves, _, hnext⟩ := (hrounds n).exists_run
    exact ⟨earlier ++ moves, by rw [hnext, hearlier, after_append]⟩

/-- The bound on turns is lowest from some round on, and from then on no call moves. -/
theorem exists_lowest (hreached : ∀ n, ∃ moves, S n = after moves)
    (hrounds : ∀ n, Round (S n) (S (n + 1))) :
    ∃ N, (∀ n, (S N).turnsLeft ≤ (S n).turnsLeft) ∧ ∀ n, N ≤ n → (S n).calls = (S N).calls := by
  obtain ⟨N, _, hmin⟩ := (measure fun n => (S n).turnsLeft).wf.has_min Set.univ ⟨0, trivial⟩
  have hlowest (n : Nat) : (S N).turnsLeft ≤ (S n).turnsLeft := Nat.le_of_not_lt (hmin n trivial)
  refine ⟨N, hlowest, fun n hn => ?_⟩
  induction n, hn using Nat.le_induction with
  | base => rfl
  | succ n _ ih =>
    obtain ⟨earlier, hearlier⟩ := hreached n
    obtain ⟨moves, hnone, hnext⟩ := (hrounds n).exists_run
    have hrun := turnsLeft_run earlier hnone
    rw [← hearlier, ← hnext, turnsLeft_congr ih] at hrun
    exact (hrun.resolve_left (Nat.not_lt.2 (hlowest (n + 1)))).trans ih

/-- No call can go on before a round that does not lower the bound. -/
theorem isRunnable_of_round (h : Round (after before) w')
    (hlowest : (after before).turnsLeft ≤ w'.turnsLeft) (i : Nat) :
    (after before).isRunnable i = false := by
  rw [← Bool.not_eq_true]
  intro hrunnable
  obtain ⟨turns, hturns, htake⟩ := h
  exact absurd (turnsLeft_takeTurns htake (hturns i hrunnable) hrunnable) (Nat.not_lt.2 hlowest)

end Rounds

/-- Waiting loops end. Start from any state that a run leads to, with any calls that have not ended
in it, and let the calls take turns in rounds, with edits and calls that are given up anywhere in
between. If every compute ends after finitely many suspensions, there comes a round after which every
call has returned, unless it was given up. And in no state that a run leads to can a call go on by
itself when it has just been resumed. One that waits is left where it is, or the compute that it
waited for has ended; then it returns what came of that, with the cache as it is, unless that is
nothing that it takes. So it looks at its slot again in that case alone. -/
theorem waiting_loops_end (before : List Move) (S : Nat → Workbench) (hstart : S 0 = after before)
    (hrounds : ∀ n, Round (S n) (S (n + 1)))
    (hcomputes : ∀ n i, (S n).isComputing i → ∃ m, n ≤ m ∧ (S m).isComputing i = false) :
    (∃ N, ∀ n, N ≤ n → ∀ (i : Nat) (call : Call), (S n).calls[i]? = some call →
      call.phase = .cancelled ∨ ∃ answer, call.phase = .returned answer) ∧
    ∀ (moves : List Move) (i : Nat), let w := after moves
      (w.apply (.resume i)).isRunnable i = false ∧
      ∀ (call : Call) (t : Nat), w.calls[i]? = some call → call.phase = .waiting t →
        w.apply (.resume i) = w ∨
        ∃ a, w.cache.announcement? t = some a ∧
          (∀ (j : Nat) (leader : Call) (d : Option Filed), w.calls[j]? = some leader →
            leader.phase ≠ .computing t d) ∧
          ((∃ answer, w.apply (.resume i) = w.update i w.cache (call.atPhase (.returned answer))) ∨
            call.Declines a) := by
  refine ⟨?_, fun moves i => ⟨isRunnable_resume (sound_after moves) i, fun call t hcall hphase =>
    resume_of_waiting (sound_after moves) hcall hphase⟩⟩
  have hreached := reached_of_rounds hstart hrounds
  obtain ⟨N, hlowest, hsame⟩ := exists_lowest hreached hrounds
  obtain ⟨earlier, hearlier⟩ := hreached N
  -- A call that computes would do so for ever, since no call moves any more.
  have hidle (i : Nat) : (S N).isComputing i = false := by
    rw [← Bool.not_eq_true]
    intro hcomputing
    obtain ⟨m, hm, hends⟩ := hcomputes N i hcomputing
    simp only [isComputing, phase?, hsame m hm] at hends
    simp only [isComputing, phase?, hends] at hcomputing
    cases hcomputing
  have hstill : ∀ i, (after earlier).isRunnable i = false :=
    isRunnable_of_round (hearlier ▸ hrounds N) (hearlier ▸ hlowest (N + 1))
  refine ⟨N, fun n hn i call hcall => ?_⟩
  rw [hsame n hn, hearlier] at hcall
  rw [hearlier] at hidle
  have hended := ended_of_still hidle hstill hcall
  cases hphase : call.phase with
  | returned answer => exact .inr ⟨answer, rfl⟩
  | cancelled => exact .inl rfl
  | _ => simp [Call.hasEnded, hphase] at hended

end Workbench

namespace Sample

/-- Four calls for one slot: the first one computes and the others wait for it. -/
def queue : List Move :=
  [.make key (.obtain .any), .make key .recompute, .make key (.obtain (.matching ⟨[1]⟩)),
    .make key .settle, .resume 0, .resume 1, .resume 2, .resume 3]

/-- What happens to them round by round: the last call is given up and the first one returns, so that
the second one computes and the third one waits again; the second one fails; the third one computes
and returns. -/
def queueRounds : List (List Move) :=
  [[.cancel 3, .resume 0, .finish 0 (.ok (record "first"))], [.resume 1, .resume 2],
    [.resume 1, .finish 1 (.error (.unreadable ⟨"/A.svelte"⟩))],
    [.resume 2, .finish 2 (.ok (record "second"))]]

end Sample

namespace Workbench

/-- Only calls that were made can go on. -/
theorem lt_length_of_isRunnable {w : Workbench} {i : Nat} (h : w.isRunnable i) :
    i < w.calls.length := by
  obtain ⟨call, hcall, _⟩ := Option.any_eq_true _ _ |>.1 h
  exact (List.getElem?_eq_some_iff.1 hcall).1

/-- Only calls that were made compute. -/
theorem lt_length_of_isComputing {w : Workbench} {i : Nat} (h : w.isComputing i) :
    i < w.calls.length := by
  rw [← Nat.not_le]
  intro hle
  simp [isComputing, phase?, List.getElem?_eq_none hle] at h

/-- Four rounds bring the calls of `Sample.queue` to their end. -/
theorem waiting_loops_end_queue :
    let S (n : Nat) : Workbench := after (Sample.queue ++ (Sample.queueRounds.take n).flatten)
    ((S 0).phase? 2 = some (.waiting 0) ∧ (S 2).phase? 2 = some (.waiting 1)) ∧
    (∀ n, Round (S n) (S (n + 1))) ∧
    (∀ n i, (S n).isComputing i → ∃ m, n ≤ m ∧ (S m).isComputing i = false) ∧
    ∃ N, ∀ n, N ≤ n → ∀ (i : Nat) (call : Call), (S n).calls[i]? = some call →
      call.phase = .cancelled ∨ ∃ answer, call.phase = .returned answer := by
  intro S
  have hlast (n : Nat) (hn : 4 ≤ n) : S n = S 4 := by
    have htake : Sample.queueRounds.take n = Sample.queueRounds.take 4 :=
      (List.take_of_length_le hn).trans (List.take_of_length_le (Nat.le_refl 4)).symm
    simp only [S, htake]
  -- Only four calls are made, so what holds of each is decided by looking at four numbers.
  have hrunnable {w : Workbench} {turns : List Nat} (hlength : w.calls.length = 4)
      (h : ∀ i < 4, w.isRunnable i → i ∈ turns) (i : Nat) (hi : w.isRunnable i) : i ∈ turns :=
    h i (hlength ▸ lt_length_of_isRunnable hi) hi
  have hrounds (n : Nat) : Round (S n) (S (n + 1)) := by
    match n with
    | 0 =>
      exact ⟨[0], hrunnable rfl (by decide), .aside (m := .cancel 3) rfl
        (.turn (.ended (.ok (Sample.record "first"))) (.done _))⟩
    | 1 => exact ⟨[1, 2], hrunnable rfl (by decide), .turn .suspended (.turn .suspended (.done _))⟩
    | 2 =>
      exact ⟨[1], hrunnable rfl (by decide),
        .turn (.ended (.error (.unreadable ⟨"/A.svelte"⟩))) (.done _)⟩
    | 3 =>
      exact ⟨[2], hrunnable rfl (by decide),
        .turn (.ended (.ok (Sample.record "second"))) (.done _)⟩
    | n + 4 =>
      rw [hlast (n + 4) (by omega), hlast (n + 4 + 1) (by omega)]
      exact ⟨[], hrunnable rfl (by decide), .done _⟩
  have hcomputes (n i : Nat) (_ : (S n).isComputing i) :
      ∃ m, n ≤ m ∧ (S m).isComputing i = false := by
    refine ⟨max n 4, le_max_left n 4, ?_⟩
    rw [hlast _ (le_max_right n 4), ← Bool.not_eq_true]
    intro hcomputing
    have hnone : ∀ i < 4, (S 4).isComputing i = false := by decide
    rw [hnone i (lt_length_of_isComputing hcomputing)] at hcomputing
    cases hcomputing
  exact ⟨by decide, hrounds, hcomputes, (waiting_loops_end Sample.queue S rfl hrounds hcomputes).1⟩

end Workbench

end HotComponents
