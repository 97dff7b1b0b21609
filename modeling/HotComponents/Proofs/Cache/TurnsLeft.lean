import HotComponents.Proofs.Cache.Waiting
import Mathlib.Algebra.Order.BigOperators.Group.Finset

/-!
# Turns that are left

A call computes at most once, so what it can still wait for is bounded: a ticket that is held now and
is later than the one it has waited for, or the ticket of a call that may yet compute. Counting these
*contenders* for each call bounds the turns in which calls can still get anywhere. The bound looks at
the calls alone. No edit raises it, and each turn in which a call gets anywhere lowers it.

* `contenders_update`: no turn makes a contender of a call that was none;
* `turnsLeft_step`: a move lowers the bound or leaves all calls as they are;
* `turnsLeft_le`: the bound in terms of the number of calls.
-/

namespace HotComponents

open Finset

/-- The call holds a ticket later than a given one, if one is given, or may yet take a ticket. -/
def Call.contends (call : Call) (than? : Option Nat) : Bool :=
  match call.phase with
  | .arriving => call.intent ≠ .settle
  | .waiting _ => call.intent ≠ .settle
  | .computing t _ => than?.all (· < t)
  | _ => false

/-- The move makes no call. -/
def Move.makesNone : Move → Bool
  | make _ _ => false
  | _ => true

namespace Workbench

variable {w w' : Workbench} {m : Move} {i : Nat} {call : Call} {c : Cache} {p : Phase}

/-- The calls with which a call that waited for a ticket, or for none so far, may still have to
do. -/
def contenders (w : Workbench) (than? : Option Nat) : Finset Nat :=
  (range w.calls.length).filter fun i => w.calls[i]?.any (·.contends than?)

/-- The number of turns in which one call can still get anywhere. -/
def turnsLeftOf (w : Workbench) (i : Nat) : Nat :=
  match w.phase? i with
  | some .arriving => (w.contenders none).card + 2
  | some (.waiting t) => (w.contenders (some t)).card + 2
  | some (.computing _ _) => 1
  | _ => 0

/-- The number of turns in which calls can still get anywhere. -/
def turnsLeft (w : Workbench) : Nat := ∑ i ∈ range w.calls.length, w.turnsLeftOf i

/-- The contenders are the calls that contend. -/
theorem mem_contenders {than? : Option Nat} :
    i ∈ w.contenders than? ↔ ∃ call, w.calls[i]? = some call ∧ call.contends than? := by
  simp only [contenders, mem_filter, mem_range, Option.any_eq_true]
  constructor
  · rintro ⟨_, h⟩
    exact h
  · rintro ⟨call, hcall, h⟩
    exact ⟨(List.getElem?_eq_some_iff.1 hcall).1, call, hcall, h⟩

/-- The bound looks at the calls alone, so what leaves them as they are leaves the bound. -/
theorem turnsLeft_congr (h : w'.calls = w.calls) : w'.turnsLeft = w.turnsLeft := by
  simp only [turnsLeft, turnsLeftOf, contenders, phase?, h]

/-- There are no more turns than the calls have to do with each other. -/
theorem turnsLeft_le (w : Workbench) : w.turnsLeft ≤ w.calls.length * (w.calls.length + 2) := by
  have hcontenders (than? : Option Nat) : (w.contenders than?).card ≤ w.calls.length :=
    (card_filter_le _ _).trans_eq (card_range _)
  have hone (i : Nat) : w.turnsLeftOf i ≤ w.calls.length + 2 := by
    -- At most all calls contend with one, and only the open phases count.
    unfold turnsLeftOf
    split
    · exact Nat.add_le_add_right (hcontenders _) 2
    · exact Nat.add_le_add_right (hcontenders _) 2
    · omega
    · omega
  refine (sum_le_card_nsmul _ _ _ fun i _ => hone i).trans_eq ?_
  rw [card_range, Nat.nsmul_eq_mul]

/-! ## One call moves -/

theorem phase?_update (hcall : w.calls[i]? = some call) (c : Cache) (p : Phase) (j : Nat) :
    (w.update i c (call.atPhase p)).phase? j = if i = j then some p else w.phase? j := by
  unfold phase?
  rw [calls_update hcall]
  split <;> rfl

theorem length_calls_update (w : Workbench) (i : Nat) (c : Cache) (call : Call) :
    (w.update i c call).calls.length = w.calls.length := List.length_set

/-- A turn after which a call contends only if it did before makes no contenders. -/
theorem contenders_update (hcall : w.calls[i]? = some call) {than? : Option Nat}
    (hless : (call.atPhase p).contends than? → call.contends than?) :
    (w.update i c (call.atPhase p)).contenders than? ⊆ w.contenders than? := by
  intro j hj
  rw [mem_contenders] at hj ⊢
  obtain ⟨call', hcall', hcontends⟩ := hj
  rw [calls_update hcall] at hcall'
  split at hcall'
  · next heq =>
    cases hcall'
    exact ⟨call, heq ▸ hcall, hless hcontends⟩
  · exact ⟨call', hcall', hcontends⟩

/-- Such a turn lowers the bound if it lowers that of the call itself. -/
theorem turnsLeft_update (hcall : w.calls[i]? = some call)
    (hless : ∀ than?, (call.atPhase p).contends than? → call.contends than?)
    (hown : (w.update i c (call.atPhase p)).turnsLeftOf i < w.turnsLeftOf i) :
    (w.update i c (call.atPhase p)).turnsLeft < w.turnsLeft := by
  -- No call has more contenders than before, so no other call has more turns left.
  have hcard (than? : Option Nat) :
      ((w.update i c (call.atPhase p)).contenders than?).card ≤ (w.contenders than?).card :=
    card_le_card (contenders_update hcall (hless than?))
  have hothers (j : Nat) :
      (w.update i c (call.atPhase p)).turnsLeftOf j ≤ w.turnsLeftOf j := by
    by_cases hij : i = j
    · exact hij ▸ Nat.le_of_lt hown
    · unfold turnsLeftOf
      rw [phase?_update hcall, if_neg hij]
      split
      · exact Nat.add_le_add_right (hcard _) 2
      · exact Nat.add_le_add_right (hcard _) 2
      · exact Nat.le_refl _
      · exact Nat.le_refl _
  unfold turnsLeft
  rw [length_calls_update]
  exact sum_lt_sum (fun j _ => hothers j)
    ⟨i, mem_range.2 (List.getElem?_eq_some_iff.1 hcall).1, hown⟩

/-- No turn makes a contender of a call that was none. -/
theorem contends_turn {c' : Cache} (hturn : Turn c call i m c' p) {than? : Option Nat}
    (h : (call.atPhase p).contends than?) : call.contends than? := by
  have hopen (hlook : call.Looks c) (hintent : call.intent ≠ .settle) :
      call.contends than? := by
    rcases hlook with hphase | ⟨t, a, hphase, _⟩ <;> simp [Call.contends, hphase, hintent]
  -- Only three turns leave a call that can contend at all. It contended before them: it rested, or
  -- it was looking at its slot with an intent to compute.
  cases hturn with
  | rest => exact h
  | wait hlook => exact hopen hlook (of_decide_eq_true h)
  | lead hlook _ hintent => exact hopen hlook hintent
  | _ => cases h

/-- Whoever waits for a ticket now, and waited for an older one before or for none, has fewer
contenders: the call that holds the ticket is none any more. -/
theorem contenders_of_wait (hw : Sound w) {t : Nat} {d : Option Filed} {than? : Option Nat}
    (hcall : w.calls[i]? = some call) (hidle : ∀ u d, call.phase ≠ .computing u d)
    (hpending : w.cache.content? call.key = some (.pending t d)) (hlater : than?.all (· < t))
    (hless : ∀ than?, (call.atPhase p).contends than? → call.contends than?) :
    ((w.update i c (call.atPhase p)).contenders (some t)).card < (w.contenders than?).card := by
  -- Call `j` holds the ticket in the slot. It contends with whoever waits for an older one, and
  -- does not contend with who waits for this one.
  obtain ⟨j, leader, hleader, _, hleads⟩ := hw.led hpending
  have hij : i ≠ j := by
    rintro rfl
    cases hcall.symm.trans hleader
    exact hidle t d hleads
  refine card_lt_card (Finset.ssubset_iff_subset_ne.2 ⟨?_, ?_⟩)
  · refine (contenders_update hcall (hless _)).trans fun n hn => ?_
    rw [mem_contenders] at hn ⊢
    obtain ⟨call', hcall', hcontends⟩ := hn
    refine ⟨call', hcall', ?_⟩
    unfold Call.contends at hcontends ⊢
    split at hcontends
    · exact hcontends
    · exact hcontends
    · -- What is later than the new ticket is later than the old one.
      simp only [Option.all_some, decide_eq_true_eq] at hcontends
      cases than? with
      | none => rfl
      | some u =>
        simp only [Option.all_some, decide_eq_true_eq] at hlater ⊢
        omega
    · cases hcontends
  · intro heq
    have hmem : j ∈ w.contenders than? := by
      refine mem_contenders.2 ⟨leader, hleader, ?_⟩
      simpa only [Call.contends, hleads] using hlater
    rw [← heq, mem_contenders] at hmem
    obtain ⟨call', hcall', hcontends⟩ := hmem
    rw [calls_update hcall, if_neg hij, hleader] at hcall'
    cases hcall'
    simp [Call.contends, hleads] at hcontends

/-! ## Moves -/

/-- A call that has not ended has a turn left. -/
theorem turnsLeftOf_pos (hcall : w.calls[i]? = some call) (hopen : call.hasEnded = false) :
    0 < w.turnsLeftOf i := by
  cases hphase : call.phase with
  | returned => simp [Call.hasEnded, hphase] at hopen
  | cancelled => simp [Call.hasEnded, hphase] at hopen
  | _ => simp [turnsLeftOf, phase?, hcall, hphase]

/-- One that has not begun to compute has two. -/
theorem two_le_turnsLeftOf (hcall : w.calls[i]? = some call)
    (hopen : call.phase = .arriving ∨ ∃ t, call.phase = .waiting t) : 2 ≤ w.turnsLeftOf i := by
  rcases hopen with hphase | ⟨t, hphase⟩ <;> simp [turnsLeftOf, phase?, hcall, hphase]

/-- A turn in which a call ends lowers the bound. -/
theorem turnsLeft_of_ends (hcall : w.calls[i]? = some call)
    (hless : ∀ than?, (call.atPhase p).contends than? → call.contends than?)
    (hopen : call.hasEnded = false) (hp : (call.atPhase p).hasEnded) :
    (w.update i c (call.atPhase p)).turnsLeft < w.turnsLeft := by
  refine turnsLeft_update hcall hless ?_
  have hnone : (w.update i c (call.atPhase p)).turnsLeftOf i = 0 := by
    unfold turnsLeftOf
    rw [phase?_update hcall, if_pos rfl]
    cases p <;> first | rfl | cases hp
  rw [hnone]
  exact turnsLeftOf_pos hcall hopen

/-- So does a turn in which a call looks at its slot and waits for the ticket there: it is later than
the one that the call has waited for. -/
theorem turnsLeft_of_waits (hw : Sound w) (hnewest : Newest call.key w)
    (hcall : w.calls[i]? = some call) (hlook : call.Looks w.cache) {t : Nat} {d : Option Filed}
    (hpending : w.cache.content? call.key = some (.pending t d))
    (hless : ∀ than?, (call.atPhase (.waiting t)).contends than? → call.contends than?) :
    (w.update i w.cache (call.atPhase (.waiting t))).turnsLeft < w.turnsLeft := by
  refine turnsLeft_update hcall hless ?_
  have hnow : (w.update i w.cache (call.atPhase (.waiting t))).phase? i = some (.waiting t) := by
    rw [phase?_update hcall, if_pos rfl]
  have hidle (u : Nat) (d : Option Filed) : call.phase ≠ .computing u d := fun hphase =>
    Call.not_looks_of_computing hphase _ hlook
  have hfewer (than? : Option Nat) (hlater : than?.all (· < t)) :
      ((w.update i w.cache (call.atPhase (.waiting t))).contenders (some t)).card <
        (w.contenders than?).card :=
    contenders_of_wait hw hcall hidle hpending hlater hless
  rcases hlook with hphase | ⟨u, a, hphase, ha, _⟩
  · -- An arriving call has waited for nothing, so all tickets are later.
    have hwas : w.phase? i = some .arriving := by simp [phase?, hcall, hphase]
    simp only [turnsLeftOf, hnow, hwas]
    exact Nat.add_lt_add_right (hfewer none rfl) 2
  · -- A waiting call looks again once its ticket is announced. What it finds pending is then
    -- another ticket, and a later one.
    have hwas : w.phase? i = some (.waiting u) := by simp [phase?, hcall, hphase]
    have hlater := later_of_pending hw hnewest hcall hphase (Option.isSome_of_eq_some ha) hpending
    simp only [turnsLeftOf, hnow, hwas]
    exact Nat.add_lt_add_right (hfewer (some u) (by simpa using hlater)) 2

/-- A turn lowers the bound, or leaves the call where it is; a call that can go on is not left where
it is when it is resumed. -/
theorem turnsLeft_turn (hw : Sound w) (hnewest : Newest call.key w)
    (hcall : w.calls[i]? = some call) (hturn : Turn w.cache call i m c p) :
    (w.update i c (call.atPhase p)).turnsLeft < w.turnsLeft ∨
      p = call.phase ∧ (m = .resume i → call.isRunnable w.cache = false) := by
  have hless (than? : Option Nat) (h : (call.atPhase p).contends than?) : call.contends than? :=
    contends_turn hturn h
  have hends (hopen : call.hasEnded = false) (hp : (call.atPhase p).hasEnded) :
      (w.update i c (call.atPhase p)).turnsLeft < w.turnsLeft :=
    turnsLeft_of_ends hcall hless hopen hp
  cases hturn with
  | rest hidle => exact .inr ⟨rfl, hidle⟩
  | wait hlook hpending => exact .inl (turnsLeft_of_waits hw hnewest hcall hlook hpending hless)
  -- A leading call has one turn left, where it had two at least.
  | @lead d hlook =>
    left
    refine turnsLeft_update hcall hless ?_
    have htwo := two_le_turnsLeftOf hcall hlook.isOpen
    simp only [turnsLeftOf, phase?_update hcall, if_true] at htwo ⊢
    omega
  | hit hlook => exact .inl (hends (Call.hasEnded_of_open hlook.isOpen) rfl)
  | miss hlook => exact .inl (hends (Call.hasEnded_of_open hlook.isOpen) rfl)
  | hear hphase => exact .inl (hends (Call.hasEnded_of_open (.inr ⟨_, hphase⟩)) rfl)
  | leave hopen => exact .inl (hends (Call.hasEnded_of_open hopen) rfl)
  | land hphase => exact .inl (hends (Call.hasEnded_of_computing hphase) rfl)
  | fail hphase => exact .inl (hends (Call.hasEnded_of_computing hphase) rfl)
  | quit hphase => exact .inl (hends (Call.hasEnded_of_computing hphase) rfl)

/-- A move lowers the bound, or leaves all calls as they are. -/
theorem turnsLeft_step (hw : Sound w) (hnewest : ∀ k, Newest k w) (hm : m.makesNone)
    (h : Step w m w') : w'.turnsLeft < w.turnsLeft ∨ w'.calls = w.calls := by
  cases h with
  | idle => exact .inr rfl
  | make => cases hm
  | edit => exact .inr rfl
  | turn hcall _ hturn =>
    refine (turnsLeft_turn hw (hnewest _) hcall hturn).imp_right ?_
    rintro ⟨rfl, _⟩
    obtain ⟨hlt, heq⟩ := List.getElem?_eq_some_iff.1 hcall
    exact heq ▸ List.set_getElem_self hlt

/-- It lowers the bound that a call is resumed which can go on. -/
theorem turnsLeft_resume (hw : Sound w) (hnewest : ∀ k, Newest k w) (hrunnable : w.isRunnable i) :
    (w.apply (.resume i)).turnsLeft < w.turnsLeft := by
  obtain ⟨call, hcall, hready⟩ := Option.any_eq_true _ _ |>.1 hrunnable
  obtain ⟨p, hturn, hp⟩ := call.turn_resume w.cache i
  simp only [apply, hcall, hp]
  rcases turnsLeft_turn hw (hnewest _) hcall hturn with hless | ⟨_, hidle⟩
  · exact hless
  · rw [hidle rfl] at hready
    cases hready

/-- A run without new calls lowers the bound, or leaves all calls as they are. -/
theorem turnsLeft_run (before : List Move) {moves : List Move}
    (hmoves : ∀ m ∈ moves, m.makesNone) :
    ((after before).run moves).turnsLeft < (after before).turnsLeft ∨
      ((after before).run moves).calls = (after before).calls := by
  -- On the moves: each of them lowers the bound or keeps the calls, and with them the bound.
  induction moves generalizing before with
  | nil => exact .inr rfl
  | cons m moves ih =>
    rw [List.forall_mem_cons] at hmoves
    have hstep := turnsLeft_step (sound_after before) (fun k => newest_after k before) hmoves.1
      (step_apply (after before) m)
    have hrest := ih (before ++ [m]) hmoves.2
    rw [after_append] at hrest
    rw [run_cons]
    rcases hrest with hless | hsame
    · left
      rcases hstep with hless' | hsame'
      · exact hless.trans hless'
      · exact hless.trans_eq (turnsLeft_congr hsame')
    · rcases hstep with hless' | hsame'
      · exact .inl ((turnsLeft_congr hsame).trans_lt hless')
      · exact .inr (hsame.trans hsame')

/-- So no move that makes no call raises the bound. -/
theorem turnsLeft_apply_le (before : List Move) (hm : m.makesNone) :
    ((after before).apply m).turnsLeft ≤ (after before).turnsLeft :=
  (turnsLeft_step (sound_after before) (fun k => newest_after k before) hm
    (step_apply _ m)).elim Nat.le_of_lt fun hsame => (turnsLeft_congr hsame).le

/-- Nor does a run of such moves. -/
theorem turnsLeft_run_le (before : List Move) {moves : List Move}
    (hmoves : ∀ m ∈ moves, m.makesNone) :
    ((after before).run moves).turnsLeft ≤ (after before).turnsLeft :=
  (turnsLeft_run before hmoves).elim Nat.le_of_lt fun hsame => (turnsLeft_congr hsame).le

end Workbench

end HotComponents
