import HotComponents.Proofs.Cache.Sound

/-!
# Single flight

However many callers there are and whatever they accept, a key is computed by one of them at a time.
A second compute begins while one is under way only if the slot was edited in between, and the first
one has then lost its slot.

* `of_invokes`: a compute begins at a free slot, which is pending under its ticket then;
* `single_flight`: two computes of one key overlap only across an edit of its slot.
-/

namespace HotComponents

namespace Workbench

variable {w w' : Workbench} {m : Move} {i j : Nat} {k : Key}

/-- Call number `i` is inside its compute for the slot of a key. -/
def computesFor (w : Workbench) (k : Key) (i : Nat) : Bool :=
  w.isComputing i && w.calls[i]?.any fun call => call.key.same k

/-- The move invokes the compute of call number `i` for the slot of a key. -/
def invokes (w : Workbench) (m : Move) (k : Key) (i : Nat) : Bool :=
  !w.computesFor k i && (w.apply m).computesFor k i

/-- A call is inside its compute for a slot exactly if it is there, for that slot, and computes. -/
theorem computesFor_iff :
    w.computesFor k i ↔ ∃ (call : Call) (t : Nat) (d : Option Filed),
      w.calls[i]? = some call ∧ call.key.slot = k.slot ∧ call.phase = .computing t d := by
  unfold computesFor isComputing phase?
  cases hcall : w.calls[i]? with
  | none => simp
  | some call =>
    cases hphase : call.phase with
    | computing t d => simp [hphase, Key.same_iff]
    | _ => simp [hphase]

/-- Where a compute is invoked, the slot was free, and is pending under the ticket of the compute
behind the move. -/
theorem of_invokes (h : w.invokes m k i) :
    (∀ t d, w.cache.content? k ≠ some (.pending t d)) ∧
    ∃ (call : Call) (t : Nat) (d : Option Filed), (w.apply m).calls[i]? = some call ∧
      call.key.slot = k.slot ∧ call.phase = .computing t d ∧
      (w.apply m).cache.content? k = some (.pending t d) := by
  simp only [invokes, Bool.and_eq_true, Bool.not_eq_true', computesFor_iff] at h
  obtain ⟨hbefore, call, t, d, hcall, hk, hphase⟩ := h
  rcases computing_step (step_apply w m) hcall hphase with
    -- It did not compute before the move, so it has just taken its ticket.
    hold | ⟨_, rfl, hcache, hfree, _⟩
  · have hcomputes : w.computesFor k i := computesFor_iff.2 ⟨call, t, d, hold, hk, hphase⟩
    rw [hbefore] at hcomputes
    cases hcomputes
  · rw [Cache.content?_congr hk] at hfree
    refine ⟨fun t d' hp => ?_, call, _, d, hcall, hk, hphase, ?_⟩
    · rw [hfree] at hp
      simp at hp
    · rw [hcache, Cache.content?_issue, if_pos hk.symm]

/-- A call that computes at the end of a run has computed under one ticket all the while. -/
theorem computing_run {call : Call} {t : Nat} {d : Option Filed} (hcall : w.calls[i]? = some call)
    (hphase : call.phase = .computing t d) (moves : List Move)
    (hend : (w.run moves).isComputing i) : (w.run moves).calls[i]? = some call := by
  induction moves generalizing w with
  | nil => exact hcall
  | cons m moves ih =>
    -- A call that ended on the way could not compute in the end.
    rcases computing_stays (step_apply w m) hcall hphase with
      hstays | ⟨⟨call', hcall', hended⟩, _⟩
    · exact ih hstays hend
    · have hdone := ended_run hcall' hended moves
      rw [run_cons] at hend
      simp only [isComputing, phase?, hdone, Option.map_some] at hend
      cases hp : call'.phase <;> simp [hp, Call.hasEnded] at hend hended

/-- Where nothing edits a slot, its pending ticket outlasts every call that computes under it. -/
theorem pending_while_computing (hw : Sound w) {call : Call} {t : Nat} {d : Option Filed}
    (hcall : w.calls[i]? = some call) (hphase : call.phase = .computing t d)
    (hp : w.cache.content? k = some (.pending t d)) {moves : List Move}
    (htouch : ∀ x ∈ moves, x.touches k = false) (hend : (w.run moves).isComputing i) :
    (w.run moves).cache.content? k = some (.pending t d) := by
  rcases pending_run hw htouch hp with hstill | hannounced
  · exact hstill
  · have hlast := computing_run hcall hphase moves hend
    rw [(sound_run hw moves).unheard hlast hphase] at hannounced
    cases hannounced

/-- Every call that computes for a slot does so under the ticket that the slot is pending under. -/
def Undisturbed (k : Key) (w : Workbench) : Prop :=
  ∀ (i t : Nat) (call : Call) (d : Option Filed), w.calls[i]? = some call →
    call.key.slot = k.slot → call.phase = .computing t d → w.cache.content? k = some (.pending t d)

/-- In the beginning no call computes. -/
theorem undisturbed_empty (k : Key) : Undisturbed k {} := by
  intro i t call d hcall
  simp at hcall

/-- A step that does not touch the slot leaves every call that computes for it its ticket. -/
theorem undisturbed_step (hw : Sound w) (h : Step w m w') (htouch : m.touches k = false)
    (hk : Undisturbed k w) : Undisturbed k w' := by
  intro i t call d hcall hslot hphase
  rcases computing_step h hcall hphase with
    hold | ⟨_, rfl, hcache, _, _⟩
  · -- An announced ticket is no longer held, but this one is.
    rcases pending_stays h htouch (hk i t call d hold hslot hphase) with hp | ha
    · exact hp
    · rw [(sound_step hw h).unheard hcall hphase] at ha
      cases ha
  · -- The ticket was taken in this step, so the slot is pending under it.
    rw [hcache, Cache.content?_issue, if_pos hslot.symm]

/-- A run that does not touch the slot leaves every call that computes for it its ticket. -/
theorem undisturbed_run (hw : Sound w) {moves : List Move}
    (htouch : ∀ x ∈ moves, x.touches k = false) (hk : Undisturbed k w) :
    Undisturbed k (w.run moves) :=
  kept_run_of (fun hw hm hk => undisturbed_step hw (step_apply _ _) hm hk) hw htouch hk

/-- Single flight. When a compute is invoked for a key while an earlier one for that key has not
ended, the slot was edited between the two invocations. So in a run without edits of the slot at
most one call is inside its compute for the key, whichever calls there are. -/
theorem single_flight :
    (∀ (before between : List Move) (m m' : Move) (k : Key) (i j : Nat),
      (after before).invokes m k i →
      ((after before).apply m |>.run between).computesFor k i →
      ((after before).apply m |>.run between).invokes m' k j →
      ∃ x ∈ between, x.touches k) ∧
    ∀ (moves : List Move) (k : Key), (∀ x ∈ moves, x.touches k = false) →
      ∀ i j : Nat, (after moves).computesFor k i → (after moves).computesFor k j → i = j := by
  constructor
  · intro before between m m' k i j hfirst hrunning hsecond
    obtain ⟨_, call, t, d, hcall, _, hphase, hp⟩ := of_invokes hfirst
    have hw : Sound ((after before).apply m) :=
      sound_step (sound_after before) (step_apply _ m)
    -- Without an edit in between, the slot is still pending under the ticket of the first compute,
    -- and none is invoked where a slot is pending.
    apply Classical.byContradiction
    intro hnone
    have htouch : ∀ x ∈ between, x.touches k = false := by
      intro x hx
      cases hxk : x.touches k with
      | false => rfl
      | true => exact absurd ⟨x, hx, hxk⟩ hnone
    simp only [computesFor, Bool.and_eq_true] at hrunning
    have hstill := pending_while_computing hw hcall hphase hp htouch hrunning.1
    exact (of_invokes hsecond).1 t d hstill
  · intro moves k htouch i j hi hj
    have hk : Undisturbed k (after moves) :=
      undisturbed_run sound_empty htouch (undisturbed_empty k)
    obtain ⟨call, t, d, hcall, hslot, hphase⟩ := computesFor_iff.1 hi
    obtain ⟨call', t', d', hcall', hslot', hphase'⟩ := computesFor_iff.1 hj
    -- Both calls hold the ticket that the slot is pending under.
    have hsame := (hk i t call d hcall hslot hphase).symm.trans
      (hk j t' call' d' hcall' hslot' hphase')
    cases hsame
    exact (sound_after moves).single hcall hphase hcall' hphase'

/-- Call 0 computes when the slot is emptied, so call 1 computes beside it; and three calls that
accept different records have one compute among them while nothing is edited. -/
theorem single_flight_emptied :
    let make (reuse : Reuse) : Move := .make Sample.key (.obtain reuse)
    let emptied : List Move := [.invalidateKey Sample.key, make .any]
    let callers : List Move :=
      [make .any, make (.matching ⟨[1]⟩), .make Sample.key .recompute,
        .resume 0, .resume 1, .resume 2]
    let w := (after [make .any]).apply (.resume 0)
    (w.run emptied).computesFor Sample.key 0 ∧
    ((w.run emptied).apply (.resume 1)).computesFor Sample.key 0 ∧
    ((w.run emptied).apply (.resume 1)).computesFor Sample.key 1 ∧
    (∃ x ∈ emptied, x.touches Sample.key) ∧
    (after callers).computesFor Sample.key 0 ∧
    ∀ j, (after callers).computesFor Sample.key j → 0 = j := by
  intro make emptied callers w
  have hfirst : (after [make .any]).invokes (.resume 0) Sample.key 0 := by decide
  have hrunning : (w.run emptied).computesFor Sample.key 0 := by decide
  have hsecond : (w.run emptied).invokes (.resume 1) Sample.key 1 := by decide
  have hone : (after callers).computesFor Sample.key 0 := by decide
  refine ⟨hrunning, by decide, by decide, ?_, hone, fun j hj => ?_⟩
  · exact single_flight.1 [make .any] emptied (.resume 0) (.resume 1) Sample.key 0 1
      hfirst hrunning hsecond
  · exact single_flight.2 callers Sample.key (by decide) 0 j hone hj

end Workbench

end HotComponents
