import HotComponents.Proofs.Cache.Watch

/-!
# Keys do not interfere

A run at a desk is compared with the run that is left of it when everything addressed to other keys
is taken out. In both runs the calls for the key come equally far, event by event and round by round,
although the tickets they hold have other numbers and other orders take their turns in between.

* `Desk.Alike.forall₂_runnable`: in a round the same orders for the key take their turns;
* `Watched.Alike.apply`, `Watched.Alike.aside_apply`: one event more in both runs or in one;
* `Watched.keys_do_not_interfere`: nothing that is seen of a key depends on what is done with others.
-/

namespace HotComponents

/-- A call is found where it stands among the calls for its slot. -/
theorem Workbench.idxOf_numbers {w : Workbench} {k : Key} {n i : Nat}
    (hn : (w.numbers k)[n]? = some i) : (w.numbers k).idxOf i = n := by
  obtain ⟨hlt, rfl⟩ := List.getElem?_eq_some_iff.1 hn
  exact (w.nodup_numbers k).idxOf_getElem n hlt

namespace Desk

open Workbench (idxOf_numbers)

variable {k : Key} {d d' : Desk} {m m' : Move} {n i : Nat} {o : Order}

/-- The second desk has the orders of the first one for a slot, and no others, and they have come
equally far. -/
structure Alike (k : Key) (d d' : Desk) : Prop where
  bench : ∃ R, Workbench.Alike R k d.bench d'.bench
  orders : ∀ {n i : Nat}, d.number? k n = some i → ∃ o o', d.orders[i]? = some o ∧
    d'.orders[n]? = some o' ∧ o'.result = o.result ∧ o'.due = o.due
  orderly : d.Orderly
  orderly' : d'.Orderly

/-- No number changes as long as no call is made. -/
theorem number?_act (d : Desk) (hm : m.makesNone) (k : Key) (n : Nat) :
    (d.act m).number? k n = d.number? k n :=
  congrArg (·[n]?) (Workbench.numbers_apply d.bench hm k)

/-- How the file is spelled does not matter to a number. -/
theorem number?_congr {l : Key} (h : l.slot = k.slot) (d : Desk) (n : Nat) :
    d.number? l n = d.number? k n := by
  simp only [number?, Workbench.numbers, Key.same, h]

/-- The orders that can go on, picked out of all numbers. -/
theorem runnable_eq (d : Desk) :
    d.runnable = (List.range d.orders.length).filter fun i => d.orders[i]?.any d.isRunnable := by
  unfold runnable
  generalize d.orders = orders
  generalize d.isRunnable = p
  -- On the orders from the last one, since each order has as number how many came before it.
  induction orders using List.reverseRecOn with
  | nil => rfl
  | append_singleton orders o ih =>
    rw [List.zipIdx_append, List.filter_append, List.map_append, ih, List.length_append,
      List.length_singleton, List.range_succ, List.filter_append]
    congr 1
    · refine List.filter_congr fun j hj => ?_
      rw [List.getElem?_append_left (List.mem_range.1 hj)]
    · simp only [List.zipIdx_singleton, List.filter_cons, Nat.zero_add,
        List.getElem?_concat_length, Option.any_some]
      cases p o <;> rfl

namespace Alike

/-- On the second desk a call for the slot has the same number among all calls. -/
theorem number?_eq (h : Alike k d d') (hn : d.number? k n = some i) : d'.number? k n = some n := by
  obtain ⟨R, hb⟩ := h.bench
  have hlt : n < d'.bench.calls.length := hb.length ▸ (List.getElem?_eq_some_iff.1 hn).1
  rw [number?, hb.numbers_eq]
  exact List.getElem?_range hlt

/-- Where one desk has no such call, the other has none. -/
theorem number?_eq_none (h : Alike k d d') (hn : d.number? k n = none) :
    d'.number? k n = none := by
  obtain ⟨R, hb⟩ := h.bench
  rw [number?, List.getElem?_eq_none_iff, ← hb.length] at hn
  rw [number?, hb.numbers_eq]
  simpa using hn

/-- Calls with equal numbers compute at the same time. -/
theorem isComputing_eq (h : Alike k d d') (hn : d.number? k n = some i) :
    d'.bench.isComputing n = d.bench.isComputing i := by
  obtain ⟨R, hb⟩ := h.bench
  obtain ⟨call, call', hcall, hcall', halike⟩ := hb.calls hn
  have hphase := halike.phase
  simp only [Workbench.isComputing, Workbench.phase?, hcall, hcall', Option.map_some]
  generalize call.phase = p at hphase
  generalize call'.phase = p' at hphase
  cases hphase <;> rfl

/-- They can go on at the same time. -/
theorem isRunnable_eq (h : Alike k d d') (hn : d.number? k n = some i) :
    d'.bench.isRunnable n = d.bench.isRunnable i := by
  obtain ⟨R, hb⟩ := h.bench
  obtain ⟨call, call', hcall, hcall', halike⟩ := hb.calls hn
  have hphase := halike.phase
  simp only [Workbench.isRunnable, hcall, hcall', Option.any_some, Call.isRunnable]
  generalize call.phase = p at hphase
  generalize call'.phase = p' at hphase
  cases hphase with
  -- A waiting call can go on once its ticket is announced, and the tickets correspond.
  | @waiting t t' ht =>
    have hheard := hb.cache.heard ht
    dsimp only
    generalize d.bench.cache.announcement? t = a at hheard
    generalize d'.bench.cache.announcement? t' = a' at hheard
    cases hheard <;> rfl
  | _ => rfl

/-- In a round the same orders for the slot take their turns, in the same order. -/
theorem forall₂_runnable (h : Alike k d d') :
    List.Forall₂ (fun i n => d.number? k n = some i)
      (d.runnable.filter (· ∈ d.bench.numbers k)) d'.runnable := by
  obtain ⟨R, hb⟩ := h.bench
  -- The calls for the slot at the first desk are all the calls of the second one, in order. So the
  -- ones that can go on are too.
  have hall : List.Forall₂ (fun i n => d.number? k n = some i)
      (d.bench.numbers k) (List.range d'.orders.length) := by
    refine List.forall₂_iff_get.2 ⟨by rw [List.length_range, h.orderly'.length, hb.length], ?_⟩
    intro n hn hn'
    simp [number?, hn]
  have hown : d.runnable.filter (· ∈ d.bench.numbers k) =
      (d.bench.numbers k).filter fun i => d.orders[i]?.any d.isRunnable := by
    rw [runnable_eq, h.orderly.length]
    simp only [Workbench.numbers, List.filter_filter]
    refine List.filter_congr fun i hi => ?_
    rw [Bool.and_comm]
    congr 1
    simp [List.mem_range.1 hi]
  rw [hown, runnable_eq d']
  refine List.rel_filter (fun i n hn => ?_) hall
  obtain ⟨o, o', ho, ho', hresult, _⟩ := h.orders hn
  simp only [ho, ho', Option.any_some, isRunnable, h.orderly.numbered ho, h.orderly'.numbered ho',
    h.isRunnable_eq hn, h.isComputing_eq hn, hresult]

/-! ## Turns -/

/-- Both desks move in step. -/
theorem act (h : Alike k d d') (hm : m.makesNone) (hm' : m'.makesNone)
    (hb : ∃ R, Workbench.Alike R k (d.bench.apply m) (d'.bench.apply m')) :
    Alike k (d.act m) (d'.act m') where
  bench := hb
  orders hn := h.orders ((number?_act d hm k _).symm.trans hn)
  orderly := h.orderly.act hm
  orderly' := h.orderly'.act hm'

/-- The first desk moves on its own. -/
theorem aside_act (h : Alike k d d') (hm : m.makesNone)
    (hb : ∃ R, Workbench.Alike R k (d.bench.apply m) d'.bench) : Alike k (d.act m) d' where
  bench := hb
  orders hn := h.orders ((number?_act d hm k _).symm.trans hn)
  orderly := h.orderly.act hm
  orderly' := h.orderly'

/-- Orders with equal numbers take a turn. -/
theorem resume (h : Alike k d d') (hn : d.number? k n = some i) :
    Alike k (d.resume i) (d'.resume n) := by
  obtain ⟨o, o', ho, ho', hresult, _⟩ := h.orders hn
  have hgoes : Alike k (d.act (.resume i)) (d'.act (.resume n)) :=
    h.act rfl rfl (h.bench.elim fun _ hb => hb.resume hn)
  have hn' : (d.act (.resume i)).number? k n = some i :=
    (number?_act d (m := .resume i) rfl k n).trans hn
  have hcomputing := hgoes.isComputing_eq hn'
  rcases resume_eq h.orderly ho with ⟨heq, hnone⟩ | ⟨result, hsome, hcomputes, heq⟩ <;>
    rcases resume_eq h.orderly' ho' with ⟨heq', hnone'⟩ | ⟨result', hsome', hcomputes', heq'⟩
  · rwa [heq, heq']
  · rw [hresult, hnone (hcomputing ▸ hcomputes')] at hsome'
    cases hsome'
  · rw [← hresult, hnone' (hcomputing ▸ hcomputes)] at hsome
    cases hsome
  · rw [hresult, hsome] at hsome'
    obtain rfl := Option.some.inj hsome'
    rw [heq, heq']
    exact hgoes.act rfl rfl (hgoes.bench.elim fun _ hb => hb.finish hn' result)

/-- A turn of another call does not matter. -/
theorem aside_turn (h : Alike k d d') (hm : m.call? = some i) (hi : i ∉ d.bench.numbers k) :
    Alike k (d.act m) d' :=
  h.aside_act (by cases m <;> first | rfl | cases hm)
    (h.bench.imp fun _ hb => hb.aside_turn hm hi)

/-- An order for another slot takes a turn. -/
theorem aside_resume (h : Alike k d d') (hi : i ∉ d.bench.numbers k) :
    Alike k (d.resume i) d' := by
  cases ho : d.orders[i]? with
  | none => simpa only [Desk.resume, ho] using h
  | some o =>
    have hgoes := h.aside_turn (m := .resume i) rfl hi
    rcases resume_eq h.orderly ho with ⟨heq, _⟩ | ⟨result, _, _, heq⟩
    · rwa [heq]
    · rw [heq]
      refine hgoes.aside_turn rfl ?_
      exact (Workbench.numbers_apply d.bench (m := .resume i) rfl k) ▸ hi

/-! ## What is seen in turns -/

/-- The same computes are invoked. -/
theorem invokes_eq (h : Alike k d d') (hn : d.number? k n = some i) :
    d'.invokes n = d.invokes i := by
  obtain ⟨R, hb⟩ := h.bench
  obtain ⟨call, call', hcall, hcall', halike⟩ := hb.calls hn
  have hslot := hb.slot_eq hcall'
  have hgoes : Alike k (d.act (.resume i)) (d'.act (.resume n)) :=
    h.act rfl rfl (hb.resume hn)
  have hafter : (d'.bench.apply (.resume n)).isComputing n =
      (d.bench.apply (.resume i)).isComputing i :=
    hgoes.isComputing_eq ((number?_act d (m := .resume i) rfl k n).trans hn)
  -- Among the calls for the slot both have the number `n`.
  have hkey : call.key.slot = k.slot := halike.key ▸ hslot
  have hfull := idxOf_numbers ((number?_congr hkey d n).trans hn)
  have halone := idxOf_numbers ((number?_congr hkey d' n).trans (h.number?_eq hn))
  simp only [invokes, hcall, hcall', h.isComputing_eq hn, hafter, halike.key, hfull, halone]

end Alike

/-- What is invoked in a turn is seen of the slot that the call is for. -/
theorem same_of_mem_invokes {s : Sight} (hs : s ∈ d.invokes i) :
    s.key.same k ↔ i ∈ d.bench.numbers k := by
  unfold invokes at hs
  split at hs
  · cases hs
  · next call hcall =>
    split at hs
    · obtain rfl := List.mem_singleton.1 hs
      simp [Workbench.mem_numbers, hcall, Sight.key, Key.same_iff]
    · cases hs

/-- The same call is cancelled at either desk. -/
theorem Alike.cancel (h : Alike k d d') (hn : d.number? k n = some i) :
    Alike k (d.cancel i) (d'.cancel n) := by
  obtain ⟨o, o', ho, ho', _⟩ := h.orders hn
  simp only [Desk.cancel, ho, ho', Option.elim_some, h.orderly.numbered ho,
    h.orderly'.numbered ho']
  exact h.act rfl rfl (h.bench.elim fun _ hb => hb.cancel hn)

/-- Another call is cancelled at the first desk. -/
theorem Alike.aside_cancel (h : Alike k d d') (hi : i ∉ d.bench.numbers k) :
    Alike k (d.cancel i) d' := by
  unfold Desk.cancel
  cases ho : d.orders[i]? with
  | none => exact h
  | some o =>
    rw [Option.elim_some, h.orderly.numbered ho]
    exact h.aside_turn rfl hi

/-- A result is handed in for orders with equal numbers, or none is due on either side. -/
theorem Alike.handIn (h : Alike k d d') (hn : d.number? k n = some i)
    (result : Option (Except BuildError Record)) :
    Alike k ((d.handIn? i result).getD d) ((d'.handIn? n result).getD d') := by
  obtain ⟨o, o', ho, ho', hresult, hdue⟩ := h.orders hn
  cases hd : o.due with
  | false =>
    rw [handIn_of_not_due ho hd, handIn_of_not_due ho' (hdue.trans hd)]
    exact h
  | true =>
    have hfull : d.handIn? i result =
        some { d with orders := d.orders.set i { o with result, due := false } } := by
      simp [handIn?, ho, hd]
    have halone : d'.handIn? n result =
        some { d' with orders := d'.orders.set n { o' with result, due := false } } := by
      simp [handIn?, ho', hdue, hd]
    rw [hfull, halone, Option.getD_some, Option.getD_some]
    refine ⟨h.bench, fun {n' i'} hn' => ?_, h.orderly.handIn hfull, h.orderly'.handIn halone⟩
    obtain ⟨x, x', hx, hx', hxx⟩ := h.orders hn'
    -- The order that something is handed in for is the same one on either side.
    by_cases hni : n = n'
    · subst hni
      cases hn.symm.trans hn'
      exact ⟨_, _, List.getElem?_set_self (List.getElem?_eq_some_iff.1 ho).1,
        List.getElem?_set_self (List.getElem?_eq_some_iff.1 ho').1, rfl, rfl⟩
    · have hii : i ≠ i' := by
        rintro rfl
        exact hni (Workbench.numbers_inj hn hn')
      exact ⟨x, x', (List.getElem?_set_ne hii).trans hx, (List.getElem?_set_ne hni).trans hx', hxx⟩

/-- A result for another slot is handed in. -/
theorem Alike.aside_handIn (h : Alike k d d') (hi : i ∉ d.bench.numbers k)
    (result : Option (Except BuildError Record)) :
    Alike k ((d.handIn? i result).getD d) d' := by
  cases hd : d.handIn? i result with
  | none => exact h
  | some d₁ =>
    -- Only the order that something is handed in for changes, and that is for another slot.
    have hset : ∃ o, d₁ = { d with orders := d.orders.set i o } := by
      unfold handIn? at hd
      obtain ⟨o, _, hd⟩ := Option.bind_eq_some_iff.1 hd
      exact ⟨_, (Option.some.inj (Option.ite_none_right_eq_some.1 hd).2).symm⟩
    have horderly := h.orderly.handIn hd
    obtain ⟨o, rfl⟩ := hset
    refine ⟨h.bench, fun {n' i'} hn' => ?_, horderly, h.orderly'⟩
    have hii : i ≠ i' := by
      rintro rfl
      exact hi (List.mem_of_getElem? hn')
    obtain ⟨x, x', hx, hx', hxx⟩ := h.orders hn'
    exact ⟨x, x', (List.getElem?_set_ne hii).trans hx, hx', hxx⟩

/-- A call for the slot is made at both desks. -/
theorem Alike.order (h : Alike k d d') (name : String) {key : Key} (hkey : key.slot = k.slot)
    (intent : Intent) (result : Option (Except BuildError Record)) :
    Alike k (d.order name key intent result) (d'.order name key intent result) where
  bench := h.bench.imp fun _ hb => hb.make hkey intent
  orders {n i} hn := by
    obtain ⟨R, hb⟩ := h.bench
    have hnumbers : (d.bench.apply (.make key intent)).numbers k =
        d.bench.numbers k ++ [d.bench.calls.length] := by
      rw [Workbench.numbers_make, if_pos (Key.same_iff.2 hkey)]
    change ((d.bench.apply (.make key intent)).numbers k)[n]? = some i at hn
    rw [hnumbers] at hn
    rcases Nat.lt_or_ge n (d.bench.numbers k).length with hlt | hge
    · rw [List.getElem?_append_left hlt] at hn
      obtain ⟨o, o', ho, ho', hoo⟩ := h.orders hn
      exact ⟨o, o', (List.getElem?_append_left (List.getElem?_eq_some_iff.1 ho).1).trans ho,
        (List.getElem?_append_left (List.getElem?_eq_some_iff.1 ho').1).trans ho', hoo⟩
    · -- The new orders are the last ones at either desk.
      rw [List.getElem?_append_right hge] at hn
      obtain ⟨hlen, hi⟩ := List.getElem?_eq_some_iff.1 hn
      simp only [List.length_singleton] at hlen
      simp only [List.getElem_singleton, ← h.orderly.length] at hi
      have hlast : n = d'.orders.length := by rw [h.orderly'.length, hb.length]; omega
      subst hi hlast
      exact ⟨_, _, List.getElem?_concat_length, List.getElem?_concat_length, rfl, rfl⟩
  orderly := h.orderly.order name key intent result
  orderly' := h.orderly'.order name key intent result

/-- The first desk takes an order for another slot. -/
theorem Alike.aside_order (h : Alike k d d') (name : String) {key : Key}
    (hkey : key.slot ≠ k.slot) (intent : Intent) (result : Option (Except BuildError Record)) :
    Alike k (d.order name key intent result) d' where
  bench := h.bench.imp fun _ hb => hb.aside_make hkey intent
  orders {n i} hn := by
    have hnumbers : (d.bench.apply (.make key intent)).numbers k = d.bench.numbers k := by
      rw [Workbench.numbers_make, if_neg (fun hsame => hkey (Key.same_iff.1 hsame)),
        List.append_nil]
    change ((d.bench.apply (.make key intent)).numbers k)[n]? = some i at hn
    rw [hnumbers] at hn
    obtain ⟨o, o', ho, hoo⟩ := h.orders hn
    exact ⟨o, o', (List.getElem?_append_left (List.getElem?_eq_some_iff.1 ho).1).trans ho, hoo⟩
  orderly := h.orderly.order name key intent result
  orderly' := h.orderly'

/-- The answers with equal numbers are the same. -/
theorem Alike.answerFor?_eq (h : Alike k d d') (n : Nat) :
    d'.answerFor? k n = d.answerFor? k n := by
  cases hn : d.number? k n with
  | none => simp only [answerFor?, hn, h.number?_eq_none hn, Option.bind_none]
  | some i =>
    obtain ⟨R, hb⟩ := h.bench
    obtain ⟨call, call', hcall, hcall', halike⟩ := hb.calls hn
    have hphase := halike.phase
    simp only [answerFor?, hn, h.number?_eq hn, Option.bind_some, Workbench.answer?, hcall, hcall',
      Call.answer?]
    generalize call.phase = p at hphase
    generalize call'.phase = p' at hphase
    cases hphase with
    | returned ha => exact congrArg some ha.symm
    | _ => rfl

/-- The calls with equal numbers stand alike. -/
theorem Alike.standingFor?_eq (h : Alike k d d') (n : Nat) :
    d'.standingFor? k n = d.standingFor? k n := by
  cases hn : d.number? k n with
  | none => simp only [standingFor?, hn, h.number?_eq_none hn, Option.bind_none]
  | some i =>
    obtain ⟨R, hb⟩ := h.bench
    obtain ⟨call, call', hcall, hcall', halike⟩ := hb.calls hn
    obtain ⟨o, o', ho, ho', _⟩ := h.orders hn
    have hphase := halike.phase
    simp only [standingFor?, hn, h.number?_eq hn, Option.bind_some, ho, ho', Option.map_some,
      standing, h.orderly.numbered ho, h.orderly'.numbered ho', Workbench.phase?, hcall, hcall']
    generalize call.phase = p at hphase
    generalize call'.phase = p' at hphase
    cases hphase <;> rfl

end Desk

namespace Watched

open Desk

variable {k l : Key} {w w' : Watched} {n i : Nat}

/-- The second desk has the orders of the first one for a slot, and no others, and all that was seen
there was seen of that slot at the first one too. -/
structure Alike (k : Key) (w w' : Watched) : Prop where
  desk : w.desk.Alike k w'.desk
  seen : w.seen.filter (·.key.same k) = w'.seen

namespace Alike

/-- The same is seen of the slot at either desk. -/
theorem look (h : Alike k w w') {d d' : Desk} (hd : d.Alike k d') {seen seen' : List Sight}
    (hseen : seen.filter (·.key.same k) = seen') :
    Alike k ⟨d, w.seen ++ seen⟩ ⟨d', w'.seen ++ seen'⟩ where
  desk := hd
  seen := by rw [List.filter_append, h.seen, hseen]

/-- Something is seen of another slot, if anything. -/
theorem aside_look (h : Alike k w w') {d : Desk} (hd : d.Alike k w'.desk) {seen : List Sight}
    (hseen : ∀ s ∈ seen, ¬ s.key.same k) : Alike k ⟨d, w.seen ++ seen⟩ w' where
  desk := hd
  seen := by
    rw [List.filter_append, h.seen, List.filter_eq_nil_iff.2 hseen, List.append_nil]

theorem resume (h : Alike k w w') (hn : w.desk.number? k n = some i) :
    Alike k (w.resume i) (w'.resume n) := by
  obtain ⟨o, o', ho, ho', _⟩ := h.desk.orders hn
  refine h.look (h.desk.resume hn) ?_
  simp only [ho, ho', Option.elim_some, h.desk.orderly.numbered ho, h.desk.orderly'.numbered ho',
    h.desk.invokes_eq hn]
  exact List.filter_eq_self.2 fun s hs =>
    (same_of_mem_invokes hs).2 (List.mem_of_getElem? hn)

/-- Another call takes its turn at the first desk. -/
theorem aside_resume (h : Alike k w w') (hi : i ∉ w.desk.bench.numbers k) :
    Alike k (w.resume i) w' := by
  refine h.aside_look (h.desk.aside_resume hi) fun s hs hsame => ?_
  cases ho : w.desk.orders[i]? with
  | none => simp [ho] at hs
  | some o =>
    rw [ho, Option.elim_some, h.desk.orderly.numbered ho] at hs
    exact hi ((same_of_mem_invokes hs).1 hsame)

/-- In a round orders for the slot and for others take their turns; those for the slot are the same
on either side. -/
theorem round (h : Alike k w w') : Alike k w.round w'.round := by
  have hturns : ∀ (turns turns' : List Nat) (w w' : Watched), Alike k w w' →
      List.Forall₂ (fun i n => w.desk.number? k n = some i)
        (turns.filter (· ∈ w.desk.bench.numbers k)) turns' →
      Alike k (turns.foldl Watched.resume w) (turns'.foldl Watched.resume w') := by
    intro turns
    -- On the turns, while the second desk takes those of the slot only.
    induction turns with
    | nil =>
      rintro turns' w w' h ⟨⟩
      exact h
    | cons i turns ih =>
      intro turns' w w' h hsame
      have hnumbers : (w.resume i).desk.bench.numbers k = w.desk.bench.numbers k := by
        obtain ⟨moves, hmoves, hrun⟩ := exists_run_resume h.desk.orderly i
        rw [Watched.resume, hrun]
        exact Workbench.numbers_run w.desk.bench hmoves k
      by_cases hi : i ∈ w.desk.bench.numbers k
      · rw [List.filter_cons_of_pos (by simpa using hi)] at hsame
        obtain ⟨n, rest, hn, hrest, rfl⟩ := List.forall₂_cons_left_iff.1 hsame
        refine ih rest _ _ (h.resume hn) ?_
        simpa only [number?, hnumbers] using hrest
      · rw [List.filter_cons_of_neg (by simpa using hi)] at hsame
        refine ih turns' _ _ (h.aside_resume hi) ?_
        simpa only [number?, hnumbers] using hsame
  exact hturns _ _ w w' h h.desk.forall₂_runnable

/-- Both desks go through the same number of rounds. -/
theorem iterate (h : Alike k w w') (n : Nat) :
    Alike k (Watched.round^[n] w) (Watched.round^[n] w') := by
  induction n generalizing w w' with
  | zero => exact h
  | succ n ih => exact ih h.round

/-- Both desks settle, in as many rounds as either of them allows. -/
theorem settle (h : Alike k w w') : Alike k w.settle w'.settle := by
  rw [settle_eq_iterate h.desk.orderly (Nat.le_add_right _ w'.desk.budget),
    settle_eq_iterate h.desk.orderly' (Nat.le_add_left _ w.desk.budget)]
  exact h.iterate _

/-- An event that can matter to the key happens at both desks. -/
theorem apply (h : Alike k w w') {e : Event} (he : e.concerns k) :
    Alike k (w.apply e) (w'.apply e) := by
  obtain ⟨R, hb⟩ := h.desk.bench
  have hkept (d d' : Desk) (hd : d.Alike k d') : Alike k { w with desk := d } { w' with desk := d' } :=
    ⟨hd, h.seen⟩
  -- Orders for the key are changed alike; reading, filling or emptying its slot is seen alike.
  cases e with
  | order name key intent result =>
    exact hkept _ _ (h.desk.order name (Key.same_iff.1 he) intent result)
  | handIn key n result =>
    simp only [Watched.apply, number?_congr (Key.same_iff.1 he)]
    cases hn : w.desk.number? k n with
    | none => simpa [h.desk.number?_eq_none hn] using h
    | some i => simpa [h.desk.number?_eq hn] using hkept _ _ (h.desk.handIn hn result)
  | cancel key n =>
    simp only [Watched.apply, number?_congr (Key.same_iff.1 he)]
    cases hn : w.desk.number? k n with
    | none => simpa [h.desk.number?_eq_none hn] using h
    | some i => simpa [h.desk.number?_eq hn] using hkept _ _ (h.desk.cancel hn)
  | peek key =>
    refine h.look h.desk ?_
    rw [(hb.cache.congr (Key.same_iff.1 he)).peek]
    exact List.filter_cons_of_pos he
  | replace r =>
    refine h.look (h.desk.act rfl rfl ⟨R, hb.edit rfl⟩) ?_
    rw [(hb.cache.congr (Key.same_iff.1 he)).peek]
    exact List.filter_cons_of_pos he
  | invalidateKey key =>
    refine h.look (h.desk.act rfl rfl ⟨R, hb.edit rfl⟩) ?_
    rw [(hb.cache.congr (Key.same_iff.1 he)).isSome_content?]
    exact List.filter_cons_of_pos he
  | invalidate file => exact h.look (h.desk.act rfl rfl ⟨R, hb.edit rfl⟩) rfl
  | clear => exact h.look (h.desk.act rfl rfl ⟨R, hb.edit rfl⟩) rfl
  | round => exact h.round
  | settle => exact h.settle

/-- An event for other keys happens at the first desk only. -/
theorem aside_apply (h : Alike k w w') {e : Event} (he : e.concerns k = false) :
    Alike k (w.apply e) w' := by
  obtain ⟨R, hb⟩ := h.desk.bench
  have hkept (d : Desk) (hd : d.Alike k w'.desk) : Alike k { w with desk := d } w' := ⟨hd, h.seen⟩
  have hslot {key : Key} (hkey : key.same k = false) : key.slot ≠ k.slot := fun heq => by
    rw [Key.same_iff.2 heq] at hkey
    cases hkey
  -- A call for another key is none of those for this one.
  have hother {key : Key} {n i : Nat} (hkey : key.same k = false)
      (hn : w.desk.number? key n = some i) : i ∉ w.desk.bench.numbers k := fun hi => by
    obtain ⟨call, hcall, hown⟩ := Workbench.mem_numbers.1 hi
    obtain ⟨_, hcall', hkey'⟩ := Workbench.mem_numbers.1 (List.mem_of_getElem? hn)
    cases hcall.symm.trans hcall'
    exact hslot hkey (hkey'.symm.trans hown)
  have hunseen {s : Sight} (hs : s.key.same k = false) : ∀ s' ∈ [s], ¬ s'.key.same k := by
    simp [hs]
  cases e with
  | order name key intent result =>
    exact hkept _ (h.desk.aside_order name (hslot he) intent result)
  | handIn key n result =>
    simp only [Watched.apply]
    cases hn : w.desk.number? key n with
    | none => exact h
    | some i => exact hkept _ (h.desk.aside_handIn (hother he hn) result)
  | cancel key n =>
    simp only [Watched.apply]
    cases hn : w.desk.number? key n with
    | none => exact h
    | some i => exact hkept _ (h.desk.aside_cancel (hother he hn))
  | peek key => exact h.aside_look h.desk (hunseen he)
  | replace r =>
    have hedit := hb.aside_edit (m := .replace r) rfl he
    exact h.aside_look (h.desk.aside_act rfl ⟨R, hedit⟩) (hunseen he)
  | invalidateKey key =>
    have hedit := hb.aside_edit (m := .invalidateKey key) rfl he
    exact h.aside_look (h.desk.aside_act rfl ⟨R, hedit⟩) (hunseen he)
  | invalidate file =>
    have hedit := hb.aside_edit (m := .invalidate file) rfl he
    exact h.aside_look (h.desk.aside_act rfl ⟨R, hedit⟩) nofun
  | _ => cases he

end Alike

/-- The run in which everything is left out that is addressed to other keys. -/
theorem alike_after (k : Key) (events : List Event) :
    Alike k (after events) (after (events.filter (·.concerns k))) := by
  induction events using List.reverseRecOn with
  | nil =>
    refine ⟨⟨⟨fun _ _ => False, ?_⟩, nofun, orderly_empty, orderly_empty⟩, rfl⟩
    exact ⟨⟨.vacant, nofun, nofun, nofun, nofun⟩, rfl, nofun, nofun, Workbench.sound_empty,
      Workbench.sound_empty⟩
  | append_singleton events e ih =>
    rw [List.filter_append, after, List.foldl_append]
    by_cases he : e.concerns k
    · rw [List.filter_cons_of_pos he, after, List.foldl_append]
      exact ih.apply he
    · rw [List.filter_cons_of_neg he, List.filter_nil, List.append_nil]
      exact ih.aside_apply (by simpa using he)

/-! ## What is seen of a key -/

/-- Nothing that is seen of a key tells the desks apart: the calls for it stand alike and have
returned the same, the same computes were invoked, and the same came back whenever its slot was read,
filled or emptied, all in the same order. -/
structure Agree (k : Key) (w w' : Watched) : Prop where
  answers : ∀ n, w.desk.answerFor? k n = w'.desk.answerFor? k n
  standings : ∀ n, w.desk.standingFor? k n = w'.desk.standingFor? k n
  seen : w.seen.filter (·.key.same k) = w'.seen.filter (·.key.same k)

/-- Desks that are alike to a third one agree. -/
theorem Agree.of_alike {x : Watched} (h : Alike k w x) (h' : Alike k w' x) : Agree k w w' where
  answers n := (h.desk.answerFor?_eq n).symm.trans (h'.desk.answerFor?_eq n)
  standings n := (h.desk.standingFor?_eq n).symm.trans (h'.desk.standingFor?_eq n)
  seen := h.seen.trans h'.seen.symm

/-- Runs that differ in what is done with other keys only agree on the key. -/
theorem agree_of_filter_eq {events events' : List Event}
    (h : events.filter (·.concerns k) = events'.filter (·.concerns k)) :
    Agree k (after events) (after events') :=
  .of_alike (alike_after k events) (h ▸ alike_after k events')

/-- What is addressed to another slot does not concern the key. -/
theorem filter_concerns (hslot : k.slot ≠ l.slot) (events : List Event) :
    (events.filter fun e => !e.isFor l).filter (·.concerns k) = events.filter (·.concerns k) := by
  rw [List.filter_filter]
  refine List.filter_congr fun e _ => ?_
  cases hfor : e.isFor l with
  | false => simp
  | true =>
    obtain ⟨key, hkey, hsame⟩ := Option.any_eq_true _ _ |>.1 hfor
    have hother : key.same k = false := by
      rw [← Bool.not_eq_true, Key.same_iff, Key.same_iff.1 hsame]
      exact hslot.symm
    have hnot : e.concerns k = false := by
      cases e <;> cases hkey <;> exact hother
    simp [hnot]

/-- Keys do not interfere. Take any run at a desk, in rounds, and any key. If everything is left out
that is addressed to other keys, and all edits of other files, the calls for the key return the same,
the same computes are invoked for it in the same order, and the same comes back whenever its slot is
read, filled or emptied. So nothing that is addressed to the server's record of a file is seen of the
browser's record, or the other way round. -/
theorem keys_do_not_interfere (events : List Event) :
    (∀ k, Agree k (after events) (after (events.filter (·.concerns k)))) ∧
    ∀ file : FilePath, let dom : Key := ⟨file, .dom⟩; let ssr : Key := ⟨file, .ssr⟩
      Agree dom (after events) (after (events.filter fun e => !e.isFor ssr)) ∧
      Agree ssr (after events) (after (events.filter fun e => !e.isFor dom)) := by
  refine ⟨fun k => agree_of_filter_eq ?_, fun file => ⟨agree_of_filter_eq ?_,
    agree_of_filter_eq ?_⟩⟩
  · rw [List.filter_filter]
    simp only [Bool.and_self]
  · exact (filter_concerns (by simp [Key.slot]) events).symm
  · exact (filter_concerns (by simp [Key.slot]) events).symm

end Watched

namespace Sample

/-- While a compute for the server's record of a component goes on, the browser's record is computed
and read. -/
def crossing : List Desk.Event :=
  [.order "server" ⟨key.file, .ssr⟩ .recompute none,
    .order "browser" key (.obtain .any) (some (.ok (record "browser"))), .settle, .peek key,
    .handIn ⟨key.file, .ssr⟩ 0 (some (.ok (record "server"))), .settle]

end Sample

/-- The browser's record is computed under another ticket then, and returned all the same. -/
example :
    let all := Watched.after Sample.crossing
    let alone := Watched.after (Sample.crossing.filter (·.concerns Sample.key))
    (all.desk.bench.cache.current? Sample.key).bind Filed.ticket? = some 1 ∧
      (alone.desk.bench.cache.current? Sample.key).bind Filed.ticket? = some 0 ∧
      all.desk.answerFor? Sample.key 0 = some (.record (Sample.record "browser")) ∧
      alone.desk.answerFor? Sample.key 0 = some (.record (Sample.record "browser")) := by
  decide

end HotComponents
