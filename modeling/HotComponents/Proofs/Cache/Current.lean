import HotComponents.Proofs.Cache.Sound

/-!
# Current records

The current record of a slot is the one it holds or, while it is pending, the one that was displaced
for the ticket. It changes when a record is *stored*: when a compute succeeds whose own pending slot
is still in place, or by an edit. All else that happens to a cache leaves every current record and
every edge as it is, however a compute ends and whatever was edited while it ran.

* `current?_apply`: what one move makes of a current record;
* `graph_apply`: only storing moves touch the edges;
* `current_records_kept_unless_stored`: the same for whole runs.
-/

namespace HotComponents

namespace Workbench

variable {w w' : Workbench} {m : Move} {i : Nat} {k : Key}

/-- The key and the ticket of a call that computes while its own pending slot is still in place. -/
def holding? (w : Workbench) (i : Nat) : Option (Key × Nat) :=
  match w.calls[i]? with
  | some call =>
    match call.phase with
    | .computing t _ => if w.cache.isPending call.key t then some (call.key, t) else none
    | _ => none
  | none => none

/-- A call that holds its slot has it pending under its own ticket. -/
theorem isPending_of_holding? {t : Nat} (h : w.holding? i = some (k, t)) :
    w.cache.isPending k t := by
  unfold holding? at h
  split at h
  · split at h
    · split at h
      · next hp =>
        cases h
        exact hp
      · cases h
    · cases h
  · cases h

/-- A call that holds its slot computes for it. -/
theorem computing_of_holding? {t : Nat} (h : w.holding? i = some (k, t)) :
    ∃ (call : Call) (d : Option Filed),
      w.calls[i]? = some call ∧ call.key = k ∧ call.phase = .computing t d := by
  unfold holding? at h
  split at h
  · next call hcall =>
    split at h
    · next t' d hphase =>
      split at h
      · cases h
        exact ⟨call, d, hcall, rfl, hphase⟩
      · cases h
    · cases h
  · cases h

/-- The move stores or drops records: it is an edit, or the success of a compute whose own pending
slot is still in place. -/
def stores (w : Workbench) (m : Move) : Bool :=
  match m with
  | .finish i (.ok _) => (w.holding? i).isSome
  | m => m.isEdit

/-- The current record of a slot after a move: a success is stored under its own ticket, an edit
fills or empties the slots it names, and nothing else changes. -/
def currentAfter (w : Workbench) (m : Move) (k : Key) : Option Filed :=
  match m with
  | .finish i (.ok r) =>
    match w.holding? i with
    | some (l, t) => if k.same l then some ⟨r, some t⟩ else w.cache.current? k
    | none => w.cache.current? k
  | .replace r => if k.same r.key then some ⟨r, none⟩ else w.cache.current? k
  | .invalidate file => if k.file.same file then none else w.cache.current? k
  | .invalidateKey l => if k.same l then none else w.cache.current? k
  | .clear => none
  | _ => w.cache.current? k

/-- No move of the run stores or drops a record. -/
def quiet (w : Workbench) : List Move → Bool
  | [] => true
  | m :: moves => !w.stores m && (w.apply m).quiet moves

/-! ## One move -/

/-- The displaced record in the hands of a call is the current one of its pending slot. -/
theorem current?_of_computing (hw : Sound w) {call : Call} {t : Nat} {d : Option Filed}
    (hcall : w.calls[i]? = some call) (hphase : call.phase = .computing t d)
    (hp : w.cache.isPending call.key t) : w.cache.current? call.key = d := by
  -- The slot has a leader with the displaced record in hand, and a ticket has one holder only.
  obtain ⟨d', hd'⟩ := Cache.isPending_iff.1 hp
  obtain ⟨j, leader, hleader, _, hleads⟩ := hw.led hd'
  obtain rfl := hw.single hleader hleads hcall hphase
  obtain rfl := Option.some.inj (hleader.symm.trans hcall)
  rw [hphase] at hleads
  cases hleads
  simp [Cache.current?, hd', Content.current?]

/-- To take a ticket for a free slot leaves every current record, as the record that is displaced
still counts. -/
theorem current?_issue {c : Cache} {l : Key} {d : Option Filed}
    (hfree : c.content? l = d.map .ready) (k : Key) :
    (c.issue l d).current? k = c.current? k := by
  unfold Cache.current?
  rw [Cache.content?_issue]
  split
  · next hk =>
    rw [Cache.content?_congr hk, hfree]
    cases d <;> rfl
  · rfl

/-- Turns that end no compute in success change neither current records nor edges. -/
theorem current?_graph_step (hw : Sound w) (h : Step w m w') (hedit : m.isEdit = false)
    (hok : ∀ i r, m ≠ .finish i (.ok r)) :
    (∀ k, w'.cache.current? k = w.cache.current? k) ∧ w'.cache.graph = w.cache.graph := by
  -- A step that is no edit and no success is a turn that keeps what counts, or no turn at all.
  cases h with
  | idle => exact ⟨fun _ => rfl, rfl⟩
  | make => exact ⟨fun _ => rfl, rfl⟩
  | edit hedit' =>
    rw [hedit] at hedit'
    cases hedit'
  | @turn m i call c p hcall _ hturn =>
    change (∀ k, c.current? k = w.cache.current? k) ∧ c.graph = w.cache.graph
    -- Failing and being given up both put the displaced record back, which is the current one.
    have hsurrender {t : Nat} {d : Option Filed} (a : Announcement)
        (hphase : call.phase = .computing t d) :
        (∀ k, ((w.cache.surrender call.key t d).announce t a).current? k = w.cache.current? k) ∧
          ((w.cache.surrender call.key t d).announce t a).graph = w.cache.graph := by
      refine ⟨Cache.current?_surrender (current?_of_computing hw hcall hphase), ?_⟩
      unfold Cache.surrender
      split
      · cases d <;> rfl
      · rfl
    cases hturn with
    | lead hlook hfree => exact ⟨current?_issue hfree, rfl⟩
    | @land t d r hphase => exact absurd rfl (hok i r)
    | fail hphase => exact hsurrender _ hphase
    | quit hphase => exact hsurrender _ hphase
    | _ => exact ⟨fun _ => rfl, rfl⟩

/-- What counts behind an edit is what the edit puts into the slots it touches. -/
theorem current?_edit (c : Cache) (m : Move) (k : Key) :
    (c.edit m).current? k =
      if m.touches k then m.put?.bind Content.current? else c.current? k := by
  unfold Cache.current?
  rw [Cache.content?_edit]
  split <;> rfl

/-- A success changes the cache of a call whose own pending slot is in place as redeeming its ticket
does, and any other only in what is announced. -/
theorem apply_finish_ok (w : Workbench) (i : Nat) (r : Record) :
    ((w.apply (.finish i (.ok r))).cache.slots, (w.apply (.finish i (.ok r))).cache.graph) =
      match w.holding? i with
      | some (l, t) => ((w.cache.redeem l t r).slots, (w.cache.redeem l t r).graph)
      | none => (w.cache.slots, w.cache.graph) := by
  -- The success comes to nothing in the cache unless the call is there, computes and still has its
  -- slot.
  cases hcall : w.calls[i]? with
  | none => simp [apply, holding?, hcall]
  | some call =>
    cases hphase : call.phase with
    | computing t d =>
      by_cases hp : w.cache.isPending call.key t
      · simp [apply, holding?, hcall, Call.finish, hphase, hp, update, Cache.announce]
      · simp [apply, holding?, hcall, Call.finish, hphase, hp, update, Cache.announce, Cache.redeem]
    | _ => simp [apply, holding?, hcall, Call.finish, hphase, update]

/-- What one move makes of the current record of a slot. -/
theorem current?_apply (hw : Sound w) (m : Move) (k : Key) :
    (w.apply m).cache.current? k = w.currentAfter m k := by
  have hquiet (hedit : m.isEdit = false) (hok : ∀ i r, m ≠ .finish i (.ok r)) :
      (w.apply m).cache.current? k = w.cache.current? k :=
    (current?_graph_step hw (step_apply w m) hedit hok).1 k
  cases m with
  | finish i result =>
    cases result with
    | error e => exact hquiet rfl (by simp)
    | ok r =>
      -- A success counts only for a call that still holds its slot.
      have hslots := congrArg Prod.fst (apply_finish_ok w i r)
      have hcurrent {c : Cache} (hc : (w.apply (.finish i (.ok r))).cache.slots = c.slots) :
          (w.apply (.finish i (.ok r))).cache.current? k = c.current? k := by
        simp only [Cache.current?, Cache.content?, hc]
      cases hh : w.holding? i with
      | none =>
        rw [hh] at hslots
        simp only [currentAfter, hh]
        exact hcurrent hslots
      | some held =>
        obtain ⟨l, t⟩ := held
        rw [hh] at hslots
        simp only [currentAfter, hh, Key.same_iff]
        rw [hcurrent hslots, Cache.current?_redeem]
        simp only [isPending_of_holding? hh, true_and]
  -- What an edit touches is read from its own side in one place and from the key's in the other.
  | replace r =>
    have htouch : (Move.replace r).touches k ↔ k.same r.key := by
      rw [Key.same_iff]
      exact Key.same_iff.trans eq_comm
    simp only [apply, currentAfter, ← htouch]
    exact current?_edit w.cache (.replace r) k
  | invalidate file =>
    have htouch : (Move.invalidate file).touches k ↔ k.file.same file := by
      rw [FilePath.same_iff]
      exact FilePath.same_iff.trans eq_comm
    simp only [apply, currentAfter, ← htouch]
    exact current?_edit w.cache (.invalidate file) k
  | invalidateKey l =>
    have htouch : (Move.invalidateKey l).touches k ↔ k.same l := by
      rw [Key.same_iff]
      exact Key.same_iff.trans eq_comm
    simp only [apply, currentAfter, ← htouch]
    exact current?_edit w.cache (.invalidateKey l) k
  | clear => rfl
  | make => exact hquiet rfl (by simp)
  | resume => exact hquiet rfl (by simp)
  | cancel => exact hquiet rfl (by simp)

/-- A move that stores nothing leaves the edges alone. -/
theorem graph_apply (hw : Sound w) (hm : w.stores m = false) :
    (w.apply m).cache.graph = w.cache.graph := by
  cases m with
  | finish i result =>
    cases result with
    | error e => exact (current?_graph_step hw (step_apply w _) rfl (by simp)).2
    | ok r =>
      have hgraph := congrArg Prod.snd (apply_finish_ok w i r)
      simp only [stores, Option.isSome_eq_false_iff, Option.isNone_iff_eq_none] at hm
      rw [hm] at hgraph
      exact hgraph
  | replace => cases hm
  | invalidate => cases hm
  | invalidateKey => cases hm
  | clear => cases hm
  | _ => exact (current?_graph_step hw (step_apply w _) rfl (by simp)).2

/-- A move that stores nothing is said to keep what counts. -/
theorem currentAfter_of_not_stores (hm : w.stores m = false) (k : Key) :
    w.currentAfter m k = w.cache.current? k := by
  cases m with
  | finish i result =>
    cases result with
    | ok r =>
      simp only [stores, Option.isSome_eq_false_iff, Option.isNone_iff_eq_none] at hm
      simp only [currentAfter, hm]
    | error e => rfl
  | replace => cases hm
  | invalidate => cases hm
  | invalidateKey => cases hm
  | clear => cases hm
  | _ => rfl

/-! ## Runs -/

/-- A quiet run keeps every current record and every edge. -/
theorem current?_graph_run (hw : Sound w) {moves : List Move} (hquiet : w.quiet moves) :
    (∀ k, (w.run moves).cache.current? k = w.cache.current? k) ∧
      (w.run moves).cache.graph = w.cache.graph := by
  -- On the moves: the first one keeps records and edges, and the rest is quiet from there.
  induction moves generalizing w with
  | nil => exact ⟨fun _ => rfl, rfl⟩
  | cons m moves ih =>
    simp only [quiet, Bool.and_eq_true, Bool.not_eq_true'] at hquiet
    obtain ⟨hm, hrest⟩ := hquiet
    obtain ⟨hcurrent, hgraph⟩ := ih (sound_step hw (step_apply w m)) hrest
    refine ⟨fun k => ?_, ?_⟩
    · calc ((w.apply m).run moves).cache.current? k
          = (w.apply m).cache.current? k := hcurrent k
        _ = w.currentAfter m k := current?_apply hw m k
        _ = w.cache.current? k := currentAfter_of_not_stores hm k
    · exact hgraph.trans (graph_apply hw hm)

/-- Failed and cancelled computes leave no trace. In every run, a move makes of the current records
what `currentAfter` says and no more: only the success of a compute whose own pending slot is still
in place, and the edits, change them. So a run in which computes are started, joined, fail, are
cancelled or end after their slot was taken from them leaves every current record and the dependents
of every file as they were, whatever was edited before. -/
theorem current_records_kept_unless_stored :
    (∀ (moves : List Move) (m : Move) (k : Key),
      ((after moves).apply m).cache.current? k = (after moves).currentAfter m k) ∧
    ∀ before during : List Move, (after before).quiet during →
      (∀ k, (after (before ++ during)).cache.current? k = (after before).cache.current? k) ∧
      ∀ file, (after (before ++ during)).cache.dependents file =
        (after before).cache.dependents file := by
  refine ⟨fun moves m k => current?_apply (sound_after moves) m k, ?_⟩
  intro before during hquiet
  obtain ⟨hcurrent, hgraph⟩ := current?_graph_run (sound_after before) hquiet
  rw [after_append]
  refine ⟨hcurrent, fun file => ?_⟩
  unfold Cache.dependents
  rw [hgraph]

/-- A stored record is being recomputed when its slot is replaced; the recompute then fails, another
one is given up in flight and a third caller is turned away, and the replacement stands. -/
theorem current_records_kept_unless_stored_recomputing :
    let before : List Move :=
      [.make Sample.key (.obtain .any), .resume 0, .finish 0 (.ok (Sample.record "first")),
        .make Sample.key .recompute, .resume 1, .replace (Sample.record "second")]
    let during : List Move :=
      [.finish 1 (.error (.unreadable ⟨"/A.svelte"⟩)), .make Sample.key .recompute, .resume 2,
        .make Sample.key .settle, .resume 3, .cancel 2, .cancel 3]
    (after before).cache.current? Sample.key = some ⟨Sample.record "second", none⟩ ∧
    (after (before ++ during)).cache.current? Sample.key = some ⟨Sample.record "second", none⟩ ∧
    (after (before ++ during)).cache.dependents ⟨"/theme.css"⟩ = [Sample.key] := by
  intro before during
  have hquiet : (after before).quiet during := by decide
  have hcurrent : (after before).cache.current? Sample.key =
      some ⟨Sample.record "second", none⟩ := by decide
  have hsources : (after before).cache.graph.sources ⟨"/theme.css"⟩ = [Sample.key] := by decide
  obtain ⟨hkept, hedges⟩ := current_records_kept_unless_stored.2 before during hquiet
  refine ⟨hcurrent, (hkept Sample.key).trans hcurrent, (hedges ⟨"/theme.css"⟩).trans ?_⟩
  simp [Cache.dependents, Graph.dependents, hsources]

end Workbench

end HotComponents
