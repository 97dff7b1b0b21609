import HotComponents.Cache.Desk
import HotComponents.Proofs.Cache.TurnsLeft
import Mathlib.Logic.Function.Iterate

/-!
# Orders settle

A desk allows a number of rounds for its orders to settle that is never used up: in each round in
which an order can go on, the calls come closer to their end. So to settle is to go on in rounds for
any larger number of times, and after that no order can go on.

* `Rounds.settle_eq_iterate`: rounds in which nothing can run change nothing;
* `Desk.runnable_iterate`: as many rounds as a desk allows leave no order that can go on;
* `Desk.settle_eq_iterate`: a desk settles in that many rounds or in more.
-/

namespace HotComponents

namespace Rounds

variable {σ : Type} {runnable : σ → List Nat} {resume : σ → Nat → σ}

/-- Nothing happens in a round in which nobody can go on. -/
theorem round_of_idle {s : σ} (h : runnable s = []) : round runnable resume s = s := by
  simp [round, h]

/-- To settle is to go on in rounds, whether anything can run in them or not. -/
theorem settle_eq_iterate (fuel : Nat) (s : σ) :
    settle runnable resume fuel s = (round runnable resume)^[fuel] s := by
  induction fuel generalizing s with
  | zero => rfl
  | succ fuel ih =>
    by_cases h : runnable s = []
    · rw [settle_of_idle h, Function.iterate_fixed (round_of_idle h)]
    · rw [settle_succ h, ih, Function.iterate_succ_apply]

/-- Where a round in which something can run lowers a measure, rounds end by then. -/
theorem runnable_iterate (keeps : σ → Prop) (μ : σ → Nat)
    (hkeeps : ∀ s, keeps s → keeps (round runnable resume s))
    (hless : ∀ s, keeps s → runnable s ≠ [] → μ (round runnable resume s) < μ s)
    {fuel : Nat} {s : σ} (hs : keeps s) (hfuel : μ s ≤ fuel) :
    runnable ((round runnable resume)^[fuel] s) = [] := by
  induction fuel generalizing s with
  | zero =>
    by_contra h
    exact absurd (hless s hs h) (by omega)
  | succ fuel ih =>
    by_cases h : runnable s = []
    · rwa [Function.iterate_fixed (round_of_idle h)]
    · have := hless s hs h
      rw [Function.iterate_succ_apply]
      exact ih (hkeeps s hs) (by omega)

end Rounds

namespace Workbench

variable {w : Workbench} {i : Nat}

/-- A call that computes holds a ticket. -/
theorem exists_of_isComputing (h : w.isComputing i) :
    ∃ call t d, w.calls[i]? = some call ∧ call.phase = .computing t d := by
  unfold isComputing phase? at h
  cases hcall : w.calls[i]? with
  | none => simp [hcall] at h
  | some call =>
    cases hphase : call.phase with
    | computing t d => exact ⟨call, t, d, rfl, hphase⟩
    | _ => simp [hcall, hphase] at h

/-- A call that computes is left as it is when it is resumed. -/
theorem apply_resume_of_isComputing (h : w.isComputing i) : w.apply (.resume i) = w := by
  obtain ⟨call, t, d, hcall, hphase⟩ := exists_of_isComputing h
  obtain ⟨hlt, rfl⟩ := List.getElem?_eq_some_iff.1 hcall
  simp only [apply, hcall, Call.resume_of_computing hphase, update, List.set_getElem_self]

/-- It takes the calls closer to their end that a compute ends. -/
theorem turnsLeft_finish (hw : Sound w) (hnewest : ∀ k, Newest k w) (h : w.isComputing i)
    (result : Except BuildError Record) :
    (w.apply (.finish i result)).turnsLeft < w.turnsLeft := by
  obtain ⟨call, t, d, hcall, hphase⟩ := exists_of_isComputing h
  refine (turnsLeft_step hw hnewest rfl (step_apply w (.finish i result))).resolve_right ?_
  intro hsame
  -- The call has returned by then, and before it had not.
  have hnow : (w.apply (.finish i result)).calls[i]? = some call := hsame ▸ hcall
  simp only [apply, hcall, Call.finish, hphase] at hnow
  cases result with
  | ok r =>
    rw [calls_update hcall, if_pos rfl] at hnow
    cases (congrArg Call.phase (Option.some.inj hnow)).trans hphase
  | error e =>
    rw [calls_update hcall, if_pos rfl] at hnow
    cases (congrArg Call.phase (Option.some.inj hnow)).trans hphase

end Workbench

namespace Desk

variable {d : Desk} {i : Nat} {o : Order}

/-- The bench of the desk is one that a run leads to, and its orders are its calls, one by one. -/
structure Orderly (d : Desk) : Prop where
  reached : ∃ moves, d.bench = Workbench.after moves
  numbered : ∀ {i : Nat} {o : Order}, d.orders[i]? = some o → o.call = i
  length : d.orders.length = d.bench.calls.length

/-- A desk without orders is orderly. -/
theorem orderly_empty : Orderly {} where
  reached := ⟨[], rfl⟩
  numbered := nofun
  length := rfl

/-- A move that makes no call keeps the desk in order. -/
theorem Orderly.act (h : Orderly d) {m : Move} (hm : m.makesNone) : Orderly (d.act m) where
  reached := by
    obtain ⟨moves, hmoves⟩ := h.reached
    exact ⟨moves ++ [m], by rw [Workbench.after_append, ← hmoves]; rfl⟩
  numbered := h.numbered
  length := by
    change d.orders.length = (d.bench.apply m).calls.length
    rw [h.length, Workbench.length_calls_apply]
    cases m <;> first | rfl | cases hm

/-- A new order gets the number of its call. -/
theorem Orderly.order (h : Orderly d) (name : String) (key : Key) (intent : Intent)
    (result : Option (Except BuildError Record)) : Orderly (d.order name key intent result) where
  reached := by
    obtain ⟨moves, hmoves⟩ := h.reached
    exact ⟨moves ++ [.make key intent], by rw [Workbench.after_append, ← hmoves]; rfl⟩
  numbered {i o} ho := by
    rcases Nat.lt_or_ge i d.orders.length with hlt | hge
    · exact h.numbered ((List.getElem?_append_left hlt).symm.trans ho)
    · have hnew : [_][i - d.orders.length]? = some o := (List.getElem?_append_right hge).symm.trans ho
      obtain ⟨hlen, rfl⟩ := List.getElem?_eq_some_iff.1 hnew
      simp only [List.length_singleton] at hlen
      simp only [List.getElem_singleton, ← h.length]
      omega
  length := by simp [Desk.order, Desk.act, Workbench.apply, h.length]

/-- What is handed in leaves the numbers as they are. -/
theorem Orderly.handIn (h : Orderly d) {result : Option (Except BuildError Record)} {d' : Desk}
    (hd : d.handIn? i result = some d') : Orderly d' := by
  unfold handIn? at hd
  obtain ⟨o, ho, hd⟩ := Option.bind_eq_some_iff.1 hd
  obtain ⟨_, hd⟩ := Option.ite_none_right_eq_some.1 hd
  obtain rfl := Option.some.inj hd
  refine ⟨h.reached, fun {j o'} ho' => ?_, by simp [h.length]⟩
  rw [List.getElem?_set] at ho'
  split at ho'
  · next hij =>
    split at ho'
    · obtain rfl := Option.some.inj ho'
      exact (h.numbered ho).trans hij
    · cases ho'
  · exact h.numbered ho'

/-! ## Turns of orders -/

/-- An order that goes on resumes its call, and ends its compute if the result is there. -/
theorem resume_eq (h : Orderly d) (ho : d.orders[i]? = some o) :
    (d.resume i = d.act (.resume i) ∧
      ((d.act (.resume i)).bench.isComputing i → o.result = none)) ∨
    ∃ result, o.result = some result ∧ (d.act (.resume i)).bench.isComputing i ∧
      d.resume i = (d.act (.resume i)).act (.finish i result) := by
  simp only [resume, ho, h.numbered ho]
  split
  · next result hcomputing hresult => exact .inr ⟨result, hresult, hcomputing, rfl⟩
  · next hnot =>
    refine .inl ⟨rfl, fun hcomputing => ?_⟩
    cases hresult : o.result with
    | none => rfl
    | some result => exact absurd hresult (hnot result hcomputing)

/-- So does a resumption. -/
theorem Orderly.resume (h : Orderly d) (i : Nat) : Orderly (d.resume i) := by
  cases ho : d.orders[i]? with
  | none => simpa [Desk.resume, ho] using h
  | some o =>
    rcases resume_eq h ho with ⟨heq, _⟩ | ⟨result, _, _, heq⟩
    · exact heq ▸ h.act rfl
    · exact heq ▸ (h.act (m := .resume i) rfl).act rfl

/-- And so does a cancellation. -/
theorem Orderly.cancel (h : Orderly d) (i : Nat) : Orderly (d.cancel i) := by
  unfold Desk.cancel
  cases d.orders[i]? with
  | none => exact h
  | some o => exact h.act rfl

/-- A desk is orderly after a round. -/
theorem Orderly.round (h : Orderly d) : Orderly (Rounds.round runnable Desk.resume d) :=
  List.foldlRecOn d.runnable Desk.resume h fun _ hd i _ => hd.resume i

/-! ## The rounds that a desk allows -/

/-- An order goes on by moves of its own call. -/
theorem exists_run_resume (h : Orderly d) (i : Nat) :
    ∃ moves, (∀ m ∈ moves, m.makesNone) ∧ (d.resume i).bench = d.bench.run moves := by
  cases ho : d.orders[i]? with
  | none => exact ⟨[], by simp, by simp [Desk.resume, ho, Workbench.run]⟩
  | some o =>
    rcases resume_eq h ho with ⟨heq, _⟩ | ⟨result, _, _, heq⟩
    · exact ⟨[.resume i], by simp [Move.makesNone], by rw [heq]; rfl⟩
    · exact ⟨[.resume i, .finish i result], by simp [Move.makesNone], by rw [heq]; rfl⟩

/-- An order that goes on takes the calls no further from their end. -/
theorem turnsLeft_resume_le (h : Orderly d) (i : Nat) :
    (d.resume i).bench.turnsLeft ≤ d.bench.turnsLeft := by
  obtain ⟨before, hbefore⟩ := h.reached
  obtain ⟨moves, hmoves, heq⟩ := exists_run_resume h i
  rw [heq, hbefore]
  exact Workbench.turnsLeft_run_le before hmoves

/-- The orders that can go on are the ones with their number in the list. -/
theorem mem_runnable : i ∈ d.runnable ↔ ∃ o, d.orders[i]? = some o ∧ d.isRunnable o := by
  simp only [runnable, List.mem_map, List.mem_filter, Prod.exists, exists_eq_right,
    List.mk_mem_zipIdx_iff_getElem?]

/-- It takes them closer to it if it could go on. -/
theorem turnsLeft_resume_lt (h : Orderly d) (hi : i ∈ d.runnable) :
    (d.resume i).bench.turnsLeft < d.bench.turnsLeft := by
  obtain ⟨o, ho, hrunnable⟩ := mem_runnable.1 hi
  obtain ⟨before, hbefore⟩ := h.reached
  have hsound : Workbench.Sound d.bench := hbefore ▸ Workbench.sound_after before
  have hnewest (k : Key) : Workbench.Newest k d.bench := hbefore ▸ Workbench.newest_after k before
  have hstart : (d.act (.resume i)).bench = d.bench.apply (.resume i) := rfl
  rw [Desk.isRunnable, h.numbered ho, Bool.or_eq_true, Bool.and_eq_true] at hrunnable
  rcases hrunnable with hgoes | ⟨hcomputing, hresult⟩
  · -- The call itself goes on, and what follows takes it no further from its end.
    have hless := Workbench.turnsLeft_resume hsound hnewest hgoes
    rcases resume_eq h ho with ⟨heq, _⟩ | ⟨result, _, _, heq⟩
    · rwa [heq, hstart]
    · have hafter : ((d.bench.apply (.resume i)).apply (.finish i result)).turnsLeft ≤
          (d.bench.apply (.resume i)).turnsLeft := by
        have hreached : d.bench.apply (.resume i) = Workbench.after (before ++ [.resume i]) := by
          rw [Workbench.after_append, hbefore]
          rfl
        rw [hreached]
        exact Workbench.turnsLeft_apply_le _ rfl
      rw [heq]
      exact hafter.trans_lt hless
  · -- The call waits for its result only, and that is there.
    have hsame := Workbench.apply_resume_of_isComputing hcomputing
    rcases resume_eq h ho with ⟨_, hnone⟩ | ⟨result, _, _, heq⟩
    · rw [hnone (by rwa [hstart, hsame])] at hresult
      cases hresult
    · rw [heq]
      change ((d.bench.apply (.resume i)).apply (.finish i result)).turnsLeft < _
      rw [hsame]
      exact Workbench.turnsLeft_finish hsound hnewest hcomputing result

/-- A round in which an order can go on takes the calls closer to their end. -/
theorem turnsLeft_round (h : Orderly d) (hsome : d.runnable ≠ []) :
    (Rounds.round runnable Desk.resume d).bench.turnsLeft < d.bench.turnsLeft := by
  obtain ⟨i, rest, hlist⟩ := List.exists_cons_of_ne_nil hsome
  have hfirst := turnsLeft_resume_lt h (i := i) (by simp [hlist])
  rw [Rounds.round, hlist, List.foldl_cons]
  -- The orders behind the first one take their turns on from where that one has come.
  refine (List.foldlRecOn (motive := fun d' => Orderly d' ∧
    d'.bench.turnsLeft ≤ (d.resume i).bench.turnsLeft) rest Desk.resume
    ⟨h.resume i, Nat.le_refl _⟩ fun d' hd' j _ => ?_).2.trans_lt hfirst
  exact ⟨hd'.1.resume j, (turnsLeft_resume_le hd'.1 j).trans hd'.2⟩

/-- As many rounds as the desk allows leave no order that can go on. -/
theorem runnable_iterate (h : Orderly d) :
    ((Rounds.round runnable Desk.resume)^[d.budget] d).runnable = [] := by
  refine Rounds.runnable_iterate Orderly (fun d' => d'.bench.turnsLeft)
    (fun _ => Orderly.round) (fun _ => turnsLeft_round) h ?_
  refine d.bench.turnsLeft_le.trans ?_
  rw [← h.length, budget]
  exact Nat.mul_le_mul_right _ (Nat.le_add_right _ 2)

/-- To settle is to go on in rounds, for as many as the desk allows or for more. -/
theorem settle_eq_iterate (h : Orderly d) {n : Nat} (hn : d.budget ≤ n) :
    d.settle = (Rounds.round runnable Desk.resume)^[n] d := by
  obtain ⟨more, rfl⟩ := Nat.exists_eq_add_of_le hn
  rw [Nat.add_comm, Function.iterate_add_apply, settle, Rounds.settle_eq_iterate,
    Function.iterate_fixed (Rounds.round_of_idle (runnable_iterate h))]

end Desk

end HotComponents
