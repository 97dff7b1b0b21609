import HotComponents.Proofs.Cache.Sound
import Mathlib.Logic.ExistsUnique

/-!
# Nobody waits on nobody

Each ticket that was issued is computed under by one call, or something was announced for it. A call
that waits for a ticket therefore waits for a call that computes, or it can go on at once; and once
it goes on it never waits for that ticket again, nor for an older one. Where no call computes and
none can go on, no call waits.

* `accounted_after`: no ticket is left without a holder before something is announced for it;
* `newest_step`: nobody waits for a later ticket than the one that the slot is pending under;
* `waiting_calls_are_led_or_runnable`: for whom a call waits, and what it comes to when it goes on.
-/

namespace HotComponents

namespace Workbench

variable {w w' : Workbench} {m : Move} {i : Nat} {call : Call} {k : Key} {t : Nat}
  {d : Option Filed}

/-! ## Holders of tickets -/

/-- Call number `i` is inside its compute for the slot of a key, under a given ticket. -/
def Leads (w : Workbench) (k : Key) (t i : Nat) : Prop :=
  ∃ (call : Call) (d : Option Filed),
    w.calls[i]? = some call ∧ call.key.slot = k.slot ∧ call.phase = .computing t d

/-- A call in that phase is inside its compute. -/
theorem isComputing_of_phase (hcall : w.calls[i]? = some call)
    (hphase : call.phase = .computing t d) : w.isComputing i := by
  simp [isComputing, phase?, hcall, hphase]

/-- A slot that is pending is led by one call. -/
theorem existsUnique_leads (hw : Sound w) (hp : w.cache.content? k = some (.pending t d)) :
    ∃! i, w.Leads k t i := by
  obtain ⟨i, leader, hleader, hslot, hleads⟩ := hw.led hp
  refine ⟨i, ⟨leader, d, hleader, hslot, hleads⟩, ?_⟩
  rintro j ⟨other, d', hother, _, hleads'⟩
  exact hw.single hother hleads' hleader hleads

/-- Where something was announced for a ticket, no slot is pending under it. -/
theorem isPending_of_announced (hw : Sound w) (ha : (w.cache.announcement? t).isSome) (k : Key) :
    w.cache.isPending k t = false := by
  rw [← Bool.not_eq_true]
  intro hp
  obtain ⟨d, hd⟩ := Cache.isPending_iff.1 hp
  obtain ⟨i, leader, hleader, _, hleads⟩ := hw.led hd
  rw [hw.unheard hleader hleads] at ha
  cases ha

/-! ## Tickets are accounted for -/

/-- A turn of a call that computes leaves it computing, or announces something for its ticket. -/
theorem released_turn {c c' : Cache} {p : Phase} (h : Turn c call i m c' p)
    (hphase : call.phase = .computing t d) :
    p = call.phase ∨ (c'.announcement? t).isSome := by
  have hlooks := Call.not_looks_of_computing hphase c
  -- The ticket that it lets go is the one it computes under.
  have hannounced {c₀ : Cache} {u : Nat} {d' : Option Filed} (a : Announcement)
      (hphase' : call.phase = .computing u d') :
      ((c₀.announce u a).announcement? t).isSome := by
    rw [hphase] at hphase'
    cases hphase'
    simp [Cache.announcement?_announce]
  -- Of the turns that are left for a call that computes, one does nothing and three let the ticket
  -- go.
  cases h with
  | rest => exact .inl rfl
  | hit hlook => exact absurd hlook hlooks
  | miss hlook => exact absurd hlook hlooks
  | wait hlook => exact absurd hlook hlooks
  | lead hlook => exact absurd hlook hlooks
  | hear hwaits =>
    rw [hphase] at hwaits
    cases hwaits
  | land hphase' => exact .inr (hannounced _ hphase')
  | fail hphase' => exact .inr (hannounced _ hphase')
  | quit hphase' => exact .inr (hannounced _ hphase')
  | leave hopen =>
    rw [hphase] at hopen
    rcases hopen with hopen | ⟨_, hopen⟩ <;> cases hopen

/-- A call that computes goes on to compute, or something is announced for its ticket. -/
theorem released_step (h : Step w m w') (hcall : w.calls[i]? = some call)
    (hphase : call.phase = .computing t d) :
    w'.calls[i]? = some call ∨ (w'.cache.announcement? t).isSome := by
  cases h with
  | idle => exact .inl hcall
  | edit => exact .inl hcall
  | make =>
    left
    rw [List.getElem?_append_left (List.getElem?_eq_some_iff.1 hcall).1]
    exact hcall
  | turn hmover hedit hturn =>
    rw [calls_update hmover]
    split
    · next heq =>
      subst heq
      obtain rfl := Option.some.inj (hmover.symm.trans hcall)
      refine (released_turn hturn hphase).imp_left ?_
      rintro rfl
      rfl
    · exact .inl hcall

/-- A ticket that is issued after a step was issued before it, or a call has just taken it. -/
theorem issued_step (h : Step w m w') (ht : t < w'.cache.nextTicket) :
    t < w.cache.nextTicket ∨
      ∃ (i : Nat) (call : Call) (d : Option Filed),
        w'.calls[i]? = some call ∧ call.phase = .computing t d := by
  cases h with
  | idle => exact .inl ht
  | make => exact .inl ht
  | edit =>
    rw [Cache.nextTicket_edit] at ht
    exact .inl ht
  | @turn m i mover c p hmover hedit hturn =>
    change t < c.nextTicket at ht
    cases hturn with
    | @lead d hlook hfree =>
      rw [Cache.nextTicket_issue] at ht
      rcases Nat.lt_succ_iff_lt_or_eq.1 ht with hold | rfl
      · exact .inl hold
      · refine .inr ⟨i, mover.atPhase (.computing w.cache.nextTicket d), d, ?_, rfl⟩
        rw [calls_update hmover, if_pos rfl]
    | _ => exact .inl (by simpa using ht)

/-- For each ticket that was issued a call computes, or something was announced. -/
def Accounted (w : Workbench) : Prop :=
  ∀ t < w.cache.nextTicket,
    (∃ (i : Nat) (call : Call) (d : Option Filed),
      w.calls[i]? = some call ∧ call.phase = .computing t d) ∨
    (w.cache.announcement? t).isSome

/-- A step leaves no ticket without an account: holders go on or announce, and a new ticket has a
holder. -/
theorem accounted_step (hw : Sound w) (h : Step w m w') (hacc : w.Accounted) : w'.Accounted := by
  intro t ht
  rcases issued_step h ht with hold | hnew
  · rcases hacc t hold with ⟨i, call, d, hcall, hphase⟩ | ha
    · exact (released_step h hcall hphase).imp_left fun hstays => ⟨i, call, d, hstays, hphase⟩
    · obtain ⟨a, ha⟩ := Option.isSome_iff_exists.1 ha
      exact .inr (Option.isSome_of_eq_some (announcement?_step hw h ha))
  · exact .inl hnew

/-- No ticket is left without a holder before something is announced for it. -/
theorem accounted_after (moves : List Move) : (after moves).Accounted :=
  kept_run (fun hw hacc m => accounted_step hw (step_apply _ m) hacc) sound_empty
    (fun _ ht => absurd ht (Nat.not_lt_zero _)) moves

/-! ## Nobody waits for a later ticket -/

/-- Nobody waits for a ticket that was issued after the one that the slot is pending under. -/
def Newest (k : Key) (w : Workbench) : Prop :=
  ∀ (i t u : Nat) (call : Call) (d : Option Filed), w.calls[i]? = some call →
    call.key.slot = k.slot → call.phase = .waiting t →
    w.cache.content? k = some (.pending u d) → t ≤ u

/-- A step lets nobody wait for a later ticket than the one its slot is pending under. -/
theorem newest_step (hw : Sound w) (h : Step w m w') (hk : Newest k w) : Newest k w' := by
  intro i t u call d hcall hslot hphase hpending
  rcases waiting_step h hcall hphase with hold | ⟨_, hcache, ⟨d', hp⟩, _⟩
  · -- The call has waited before. The slot is pending as it was, or under a new ticket.
    rcases pending_step h hpending with hbefore | ⟨rfl, _⟩
    · exact hk i t u call d hold hslot hphase hbefore
    · exact Nat.le_of_lt (hw.waitingIssued hold hphase)
  · -- The call has just found the ticket that the slot is pending under.
    rw [hcache, ← Cache.content?_congr hslot, hp] at hpending
    cases hpending
    exact Nat.le_refl _

/-- Behind every run nobody waits for a later ticket than the one its slot is pending under. -/
theorem newest_after (k : Key) (moves : List Move) : Newest k (after moves) :=
  kept_run (fun hw hk m => newest_step hw (step_apply _ m) hk) sound_empty
    (fun _ _ _ _ _ hcall => by simp at hcall) moves

/-! ## Calls that wait -/

/-- Where something was announced for the ticket that a call waits for, its slot is pending under a
later ticket if it is pending at all. -/
theorem later_of_pending {u : Nat} (hw : Sound w) (hk : Newest call.key w)
    (hcall : w.calls[i]? = some call) (hphase : call.phase = .waiting t)
    (ha : (w.cache.announcement? t).isSome)
    (hpending : w.cache.content? call.key = some (.pending u d)) : t < u := by
  have hle : t ≤ u := hk i t u call d hcall rfl hphase hpending
  -- The ticket itself cannot be pending any more once something was announced for it.
  have hne : t ≠ u := by
    rintro rfl
    have hfree := isPending_of_announced hw ha call.key
    rw [Cache.isPending_iff.2 ⟨_, hpending⟩] at hfree
    cases hfree
  omega

/-- A call that can go on and was waiting for a ticket does not wait for that ticket again, nor for
an older one. -/
theorem waiting_resume (hw : Sound w) (hk : Newest call.key w) (hcall : w.calls[i]? = some call)
    (hphase : call.phase = .waiting t) (hrunnable : w.isRunnable i) :
    ∃ p, (w.apply (.resume i)).calls[i]? = some (call.atPhase p) ∧
      ∀ u, p = .waiting u → t < u := by
  have hready : call.isRunnable w.cache := by simpa [isRunnable, hcall] using hrunnable
  have ha : (w.cache.announcement? t).isSome := by simpa [Call.isRunnable, hphase] using hready
  obtain ⟨p, hturn, hp⟩ := call.turn_resume w.cache i
  refine ⟨p, ?_, ?_⟩
  · simp only [apply, hcall, hp]
    rw [calls_update hcall, if_pos rfl]
  · rintro u rfl
    -- Of the turns of a call only two leave it waiting: one does nothing, but this call can go on,
    -- and one finds a ticket in the slot.
    generalize (call.resume w.cache).1 = c at hturn
    generalize hwaits : Phase.waiting u = p at hturn
    cases hturn with
    | rest hidle =>
      rw [hidle rfl] at hready
      cases hready
    | wait hlook hpending =>
      cases hwaits
      exact later_of_pending hw hk hcall hphase ha hpending
    | _ => cases hwaits

/-- Nobody waits on nobody, in any run. A pending slot belongs to one call, which is inside its
compute for it. A call that waits for a ticket waits for the one call that is inside its compute
under it, for the same slot; or something was announced for the ticket, the call can go on, and its
slot is no longer pending under the ticket. When it goes on it ends, computes, or waits for a later
ticket. So where no call computes and none can go on, no call waits. -/
theorem waiting_calls_are_led_or_runnable (moves : List Move) :
    let w := after moves
    (∀ (k : Key) (t : Nat) (d : Option Filed), w.cache.content? k = some (.pending t d) →
      ∃! i, w.Leads k t i) ∧
    (∀ (i t : Nat) (call : Call), w.calls[i]? = some call → call.phase = .waiting t →
      ((∃! j, w.Leads call.key t j) ∧ w.isRunnable i = false) ∨
      ((w.cache.announcement? t).isSome ∧ w.isRunnable i ∧
        w.cache.isPending call.key t = false ∧
        ∃ p, (w.apply (.resume i)).calls[i]? = some (call.atPhase p) ∧
          ∀ u, p = .waiting u → t < u)) ∧
    ((∀ i, w.isComputing i = false) → (∀ i, w.isRunnable i = false) →
      ∀ (i t : Nat) (call : Call), w.calls[i]? = some call → call.phase ≠ .waiting t) := by
  intro w
  have hw : Sound w := sound_after moves
  have hrunnable {i t : Nat} {call : Call} (hcall : w.calls[i]? = some call)
      (hphase : call.phase = .waiting t) :
      w.isRunnable i = (w.cache.announcement? t).isSome := by
    simp [isRunnable, hcall, Call.isRunnable, hphase]
  refine ⟨fun k t d hp => existsUnique_leads hw hp, ?_, ?_⟩
  · intro i t call hcall hphase
    rcases accounted_after moves t (hw.waitingIssued hcall hphase) with
      -- Its ticket is accounted for: somebody computes under it, or it was announced.
      ⟨j, leader, d, hleader, hleads⟩ | ha
    · refine .inl ⟨⟨j, ⟨leader, d, hleader, hw.paired hcall hphase hleader hleads, hleads⟩, ?_⟩, ?_⟩
      · rintro j' ⟨other, d', hother, _, hleads'⟩
        exact hw.single hother hleads' hleader hleads
      · rw [hrunnable hcall hphase, hw.unheard hleader hleads]
        rfl
    · have hready : w.isRunnable i := (hrunnable hcall hphase).trans ha
      exact .inr ⟨ha, hready, isPending_of_announced hw ha call.key,
        waiting_resume hw (newest_after call.key moves) hcall hphase hready⟩
  · -- The same account, when neither can be.
    intro hidle hstill i t call hcall hphase
    rcases accounted_after moves t (hw.waitingIssued hcall hphase) with
      ⟨j, leader, d, hleader, hleads⟩ | ha
    · have hcomputes := isComputing_of_phase hleader hleads
      rw [hidle j] at hcomputes
      cases hcomputes
    · rw [← hrunnable hcall hphase, hstill i] at ha
      cases ha

/-- Call 1 waits for call 0, whose slot is taken from it by call 2. It still waits for call 0 alone,
and when that is given up it goes on and waits for call 2. -/
example :
    let make : Move := .make Sample.key (.obtain .any)
    let w := after [make, make, .resume 0, .resume 1, .invalidateKey Sample.key, make, .resume 2]
    (w.phase? 1, w.isRunnable 1) = (some (.waiting 0), false) ∧
    ((w.run [.cancel 0]).phase? 1, (w.run [.cancel 0]).isRunnable 1) =
      (some (.waiting 0), true) ∧
    (w.run [.cancel 0, .resume 1]).phase? 1 = some (.waiting 1) := by
  decide

end Workbench

end HotComponents
