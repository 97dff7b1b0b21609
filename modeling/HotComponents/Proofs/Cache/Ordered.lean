import HotComponents.Proofs.Cache.Provenance
import HotComponents.Proofs.Cache.Waiting

/-!
# Slots that are not taken from their tickets

While nothing edits a slot, it is pending under the ticket of whoever computes for it, each record
that is computed for it is stored, and tickets of the slot are redeemed in order. So what a call
that waits is told is the record in the slot, or an older one. Where a slot was edited, this is
still known of all tickets but those that were lost by it.

* `current?_apply_of_untouched`: an untouched slot changes its current record only for a newer one;
* `ordered_apply`, `ordered_of_vacant`: what is known of the tickets of a slot;
* `settles_resume`: what a call comes to that never computes.
-/

namespace HotComponents

/-- The record is another one or was computed under a later ticket. -/
def Filed.NotBefore (g f : Filed) : Prop :=
  g = f ∨ ∃ t u, f.ticket? = some t ∧ g.ticket? = some u ∧ t < u

namespace Workbench

variable {w w' : Workbench} {m : Move} {i : Nat} {call : Call} {k : Key} {lost lost' : Nat → Prop}

/-! ## Current records of untouched slots -/

/-- Keys of one slot are pending together. -/
theorem isPending_congr {c : Cache} {k l : Key} {t : Nat} (h : k.slot = l.slot) :
    c.isPending k t = c.isPending l t := by
  simp only [Cache.isPending, Cache.content?_congr h]

/-- A move that does not touch a slot leaves its current record as it is, or redeems the ticket that
it is pending under. -/
theorem current?_apply_of_untouched (hw : Sound w) (htouch : m.touches k = false) :
    (w.apply m).cache.current? k = w.cache.current? k ∨
    ∃ (j t : Nat) (leader : Call) (d : Option Filed) (r : Record), m = .finish j (.ok r) ∧
      w.calls[j]? = some leader ∧ leader.key.slot = k.slot ∧ leader.phase = .computing t d ∧
      w.cache.isPending k t ∧ (w.apply m).cache.current? k = some ⟨r, some t⟩ := by
  have hother {l : Key} (hl : l.same k = false) : k.same l = false := by
    rw [← Bool.not_eq_true, Key.same_iff] at hl ⊢
    exact Ne.symm hl
  rw [current?_apply hw]
  -- Only a success for this slot can store a record; edits that do not touch it leave it alone.
  cases m with
  | finish j result =>
    cases result with
    | error e => exact .inl rfl
    | ok r =>
      cases hh : w.holding? j with
      | none => exact .inl (by simp only [currentAfter, hh])
      | some held =>
        obtain ⟨l, t⟩ := held
        obtain ⟨leader, d, hleader, rfl, hleads⟩ := computing_of_holding? hh
        -- The call that succeeds holds this slot, or another one.
        by_cases hk : k.same leader.key
        · right
          obtain ⟨d', hd'⟩ := Cache.isPending_iff.1 (isPending_of_holding? hh)
          have hslot : k.slot = leader.key.slot := Key.same_iff.1 hk
          refine ⟨j, t, leader, d, r, rfl, hleader, hslot.symm, hleads, ?_, ?_⟩
          · exact Cache.isPending_iff.2 ⟨d', (Cache.content?_congr hslot).trans hd'⟩
          · simp only [currentAfter, hh, hk, if_true]
        · exact .inl (by simp only [currentAfter, hh, hk, Bool.false_eq_true, if_false])
  | replace r => exact .inl (by simp [currentAfter, hother htouch])
  | invalidate file =>
    have hfile : k.file.same file = false := by
      have htouch : file.same k.file = false := htouch
      rw [← Bool.not_eq_true, FilePath.same_iff] at htouch ⊢
      exact Ne.symm htouch
    exact .inl (by simp [currentAfter, hfile])
  | invalidateKey l => exact .inl (by simp [currentAfter, hother htouch])
  | clear => cases htouch
  | _ => exact .inl rfl

/-- A compute that ends in a record stores it in the slot that is pending under its ticket. -/
theorem current?_of_landed (hw : Sound w) {t : Nat} {d : Option Filed}
    (hcall : w.calls[i]? = some call) (hslot : call.key.slot = k.slot)
    (hphase : call.phase = .computing t d) (hp : w.cache.isPending k t) (r : Record) :
    (w.apply (.finish i (.ok r))).cache.current? k = some ⟨r, some t⟩ := by
  have hown : w.cache.isPending call.key t := (isPending_congr hslot).trans hp
  have hholding : w.holding? i = some (call.key, t) := by simp [holding?, hcall, hphase, hown]
  have hsame : k.same call.key := Key.same_iff.2 hslot.symm
  rw [current?_apply hw]
  simp only [currentAfter, hholding, hsame, if_true]

/-- An untouched slot that has a current record keeps one. -/
theorem isSome_current?_apply (hw : Sound w) (htouch : m.touches k = false)
    (hcurrent : (w.cache.current? k).isSome) : ((w.apply m).cache.current? k).isSome := by
  rcases current?_apply_of_untouched hw htouch with hsame | ⟨_, _, _, _, _, _, _, _, _, _, hnew⟩
  · rwa [hsame]
  · rw [hnew]
    rfl

/-- An untouched slot that has a current record keeps one along a run. -/
theorem isSome_current?_run (hw : Sound w) {moves : List Move}
    (htouch : ∀ m ∈ moves, m.touches k = false) (hcurrent : (w.cache.current? k).isSome) :
    ((w.run moves).cache.current? k).isSome :=
  kept_run_of (P := fun w => (w.cache.current? k).isSome) isSome_current?_apply hw htouch hcurrent

/-! ## Tickets of a slot -/

/-- What is known of the tickets of a slot, but for those that are lost. -/
structure Ordered (lost : Nat → Prop) (k : Key) (w : Workbench) : Prop where
  /-- Whoever computes for the slot holds it. -/
  held : ∀ {i t : Nat} {call : Call} {d : Option Filed}, w.calls[i]? = some call →
    call.key.slot = k.slot → call.phase = .computing t d → w.cache.isPending k t ∨ lost t
  /-- Nobody waits for a ticket that was issued after the one it is pending under. -/
  newest : ∀ {i t u : Nat} {call : Call} {d : Option Filed}, w.calls[i]? = some call →
    call.key.slot = k.slot → call.phase = .waiting t →
    w.cache.content? k = some (.pending u d) → t ≤ u
  /-- Nobody waits in vain. -/
  awaited : ∀ {i t : Nat} {call : Call}, w.calls[i]? = some call → call.key.slot = k.slot →
    call.phase = .waiting t →
    w.cache.isPending k t ∨ (w.cache.announcement? t).isSome ∨ lost t
  /-- A record that is told to a call that waits is current, or a later one is. -/
  told : ∀ {i t : Nat} {call : Call} {f : Filed}, w.calls[i]? = some call →
    call.key.slot = k.slot → call.phase = .waiting t →
    w.cache.announcement? t = some (.record f) →
    lost t ∨ ∃ g, w.cache.current? k = some g ∧ g.NotBefore f

/-- In an empty cache there is nothing to know. -/
theorem ordered_empty (lost : Nat → Prop) (k : Key) : Ordered lost k {} where
  held hcall := by simp at hcall
  newest hcall := by simp at hcall
  awaited hcall := by simp at hcall
  told hcall := by simp at hcall

/-- What is known but for some lost tickets is known but for more of them. -/
theorem Ordered.mono (h : Ordered lost k w) (hlost : ∀ {t : Nat}, lost t → lost' t) :
    Ordered lost' k w where
  held hcall hslot hphase := (h.held hcall hslot hphase).imp_right hlost
  newest := h.newest
  awaited hcall hslot hphase := (h.awaited hcall hslot hphase).imp_right (.imp_right hlost)
  told hcall hslot hphase ha := (h.told hcall hslot hphase ha).imp_left hlost

/-- Where a slot is vacant, whoever computes for it has lost its ticket, and so have those who
wait and are not told that the compute has come to nothing. -/
theorem ordered_of_vacant (hvacant : w.cache.content? k = none)
    (hcomputes : ∀ {i t : Nat} {call : Call} {d : Option Filed}, w.calls[i]? = some call →
      call.key.slot = k.slot → call.phase = .computing t d → lost t)
    (hwaits : ∀ {i t : Nat} {call : Call}, w.calls[i]? = some call → call.key.slot = k.slot →
      call.phase = .waiting t →
      lost t ∨ ∃ a, w.cache.announcement? t = some a ∧ ∀ f, a ≠ .record f) : Ordered lost k w where
  held hcall hslot hphase := .inr (hcomputes hcall hslot hphase)
  newest _ _ _ hpending := by
    rw [hvacant] at hpending
    cases hpending
  awaited hcall hslot hphase := by
    rcases hwaits hcall hslot hphase with hlost | ⟨a, ha, _⟩
    · exact .inr (.inr hlost)
    · exact .inr (.inl (Option.isSome_of_eq_some ha))
  told hcall hslot hphase ha := by
    rcases hwaits hcall hslot hphase with hlost | ⟨a, ha', hnone⟩
    · exact .inl hlost
    · cases ha'.symm.trans ha
      exact absurd rfl (hnone _)

/-- A slot that is vacant stays known as it is while it is vacant and no call for it moves. -/
theorem Ordered.stay (hk : Ordered lost k w) (hvacant : w.cache.content? k = none)
    (hvacant' : w'.cache.content? k = none)
    (hcalls : ∀ {n : Nat} {call : Call}, w'.calls[n]? = some call → call.key.slot = k.slot →
      w.calls[n]? = some call)
    (hannounced : ∀ {t : Nat} {a : Announcement}, w.cache.announcement? t = some a →
      w'.cache.announcement? t = some a) : Ordered lost k w' := by
  have hfree (t : Nat) : ¬ w.cache.isPending k t := by
    intro hp
    obtain ⟨d, hd⟩ := Cache.isPending_iff.1 hp
    rw [hvacant] at hd
    cases hd
  refine ordered_of_vacant hvacant' ?_ ?_
  · intro i t call d hcall hslot hphase
    exact (hk.held (hcalls hcall hslot) hslot hphase).resolve_left (hfree t)
  · intro i t call hcall hslot hphase
    have hbefore := hcalls hcall hslot
    -- Whoever waits is not served by the slot, so it was told something or its ticket is lost.
    rcases hk.awaited hbefore hslot hphase with hp | hknown | hlost
    · exact absurd hp (hfree t)
    · obtain ⟨a, ha⟩ := Option.isSome_iff_exists.1 hknown
      by_cases hlost : lost t
      · exact .inl hlost
      · refine .inr ⟨a, hannounced ha, ?_⟩
        -- A record that was told would be current, or a later one.
        rintro f rfl
        obtain ⟨g, hg, _⟩ := (hk.told hbefore hslot hphase ha).resolve_left hlost
        rw [Cache.current?, hvacant] at hg
        cases hg
    · exact .inl hlost

/-- What one move preserves that does not touch the slot. -/
theorem ordered_apply (hw : Sound w) (htouch : m.touches k = false) (hk : Ordered lost k w) :
    Ordered lost k (w.apply m) := by
  have h := step_apply w m
  have hw' := sound_step hw h
  -- The slot stays pending under its ticket until the ticket is announced.
  have hstays {t : Nat} (hp : w.cache.isPending k t) :
      (w.apply m).cache.isPending k t ∨ ((w.apply m).cache.announcement? t).isSome := by
    obtain ⟨d, hd⟩ := Cache.isPending_iff.1 hp
    exact (pending_stays h htouch hd).imp_left fun hd' => Cache.isPending_iff.2 ⟨d, hd'⟩
  constructor
  · intro i t call d hcall hslot hphase
    -- Who computes for the slot.
    rcases computing_step h hcall hphase with hold | ⟨_, rfl, hcache, _⟩
    · rcases hk.held hold hslot hphase with hp | hlost
      · -- A ticket that is still computed under is not announced.
        rcases hstays hp with hp' | ha
        · exact .inl hp'
        · rw [hw'.unheard hcall hphase] at ha
          cases ha
      · exact .inr hlost
    · refine .inl (Cache.isPending_iff.2 ⟨d, ?_⟩)
      rw [hcache, Cache.content?_issue, if_pos hslot.symm]
  · intro i t u call d
    exact newest_step hw h (fun _ _ _ _ _ => hk.newest) i t u call d
  · intro i t call hcall hslot hphase
    -- Who waits for it.
    rcases waiting_step h hcall hphase with hold | ⟨_, hcache, ⟨d, hp⟩, _⟩
    · rcases hk.awaited hold hslot hphase with hp | ha | hlost
      · exact (hstays hp).imp_right .inl
      · obtain ⟨a, ha⟩ := Option.isSome_iff_exists.1 ha
        exact .inr (.inl (Option.isSome_of_eq_some (announcement?_step hw h ha)))
      · exact .inr (.inr hlost)
    · rw [hcache]
      refine .inl (Cache.isPending_iff.2 ⟨d, ?_⟩)
      rw [← Cache.content?_congr hslot, hp]
  · intro i t call f hcall hslot hphase ha
    -- What those who wait are told.
    rcases waiting_step h hcall hphase with hold | ⟨_, hcache, ⟨d, hp⟩, _⟩
    · rcases announced_step h ha with hknown | ⟨j, leader, d, hleader, hleads, _, hreleases⟩
      · -- It was told before. A record that is stored since has a later ticket.
        rcases hk.told hold hslot hphase hknown with hlost | ⟨g, hg, hnew⟩
        · exact .inl hlost
        · right
          rcases current?_apply_of_untouched hw htouch with
            hsame | ⟨j, u, leader, d, r, _, hleader, _, hleads, hp, hstored⟩
          · exact ⟨g, hsame.trans hg, hnew⟩
          · obtain ⟨d', hd'⟩ := Cache.isPending_iff.1 hp
            have hle : t ≤ u := hk.newest hold hslot hphase hd'
            have hne : t ≠ u := by
              rintro rfl
              rw [hw.unheard hleader hleads] at hknown
              cases hknown
            refine ⟨_, hstored, .inr ⟨t, u, hw.announcedOwn hknown, rfl, ?_⟩⟩
            omega
      · -- It is told now, by whoever computes for the slot.
        have hpaired : leader.key.slot = k.slot :=
          (hw.paired hold hphase hleader hleads).trans hslot
        rcases hk.held hleader hpaired hleads with hp | hlost
        · right
          generalize hf : Announcement.record f = a at hreleases
          cases hreleases with
          | land r =>
            cases hf
            exact ⟨_, current?_of_landed hw hleader hpaired hleads hp r, .inl rfl⟩
          | fail e => exact absurd hf.symm (leader.failureAnnouncement_ne_record e f)
          | quit => cases hf
        · exact .inl hlost
    · -- Nothing is announced yet of a ticket that a slot is pending under.
      obtain ⟨j, leader, hleader, _, hleads⟩ := hw.led hp
      rw [hcache, hw.unheard hleader hleads] at ha
      cases ha

/-- A run that does not touch the slot preserves what is known of its tickets. -/
theorem ordered_run (hw : Sound w) {moves : List Move} (htouch : ∀ m ∈ moves, m.touches k = false)
    (hk : Ordered lost k w) : Ordered lost k (w.run moves) :=
  kept_run_of ordered_apply hw htouch hk

/-! ## Calls that never compute -/

/-- What a call that never computes comes to when it is resumed. -/
inductive Settles (w : Workbench) (call : Call) : Phase → Prop where
  /-- It finds a record. -/
  | found {f : Filed} (hready : w.cache.content? call.key = some (.ready f)) :
      Settles w call (.returned (.record f))
  /-- It finds nothing. -/
  | absent (hvacant : w.cache.content? call.key = none) : Settles w call (.returned .absent)
  /-- It was told a record. -/
  | told {t : Nat} {f : Filed} (hphase : call.phase = .waiting t)
      (ha : w.cache.announcement? t = some (.record f)) : Settles w call (.returned (.record f))
  /-- It was told an error. -/
  | refused {t : Nat} {e : BuildError} (hphase : call.phase = .waiting t)
      (ha : w.cache.announcement? t = some (.failure e)) : Settles w call (.returned (.failure e))
  /-- It finds a ticket. -/
  | waits {t : Nat} {d : Option Filed}
      (hpending : w.cache.content? call.key = some (.pending t d)) : Settles w call (.waiting t)
  /-- It still waits. -/
  | rests {t : Nat} (hphase : call.phase = .waiting t) (hnone : w.cache.announcement? t = none) :
      Settles w call (.waiting t)

/-- A call that only waits for what is there comes to one of these when it is resumed. -/
theorem settles_resume (hcall : w.calls[i]? = some call) (hintent : call.intent = .settle)
    (hopen : call.phase = .arriving ∨ ∃ t, call.phase = .waiting t) :
    ∃ p, (w.apply (.resume i)).calls[i]? = some (call.atPhase p) ∧ Settles w call p := by
  obtain ⟨p, hturn, hp⟩ := call.turn_resume w.cache i
  refine ⟨p, ?_, ?_⟩
  · simp only [apply, hcall, hp]
    rw [calls_update hcall, if_pos rfl]
  -- The turn says what it comes to; it never takes a ticket.
  generalize (call.resume w.cache).1 = c at hturn
  cases hturn with
  | rest hidle =>
    have hidle := hidle rfl
    rcases hopen with harrives | ⟨t, hwaits⟩
    · simp [Call.isRunnable, harrives] at hidle
    · rw [hwaits]
      refine .rests hwaits ?_
      simpa [Call.isRunnable, hwaits] using hidle
  | hit hlook hready => exact .found hready
  | miss hlook hvacant => exact .absent hvacant
  | wait hlook hpending => exact .waits hpending
  | lead hlook hfree hcomputes => exact absurd hintent hcomputes
  | @hear t a answer hphase ha hheard =>
    -- It takes records and errors, and looks again when its leader is gone.
    cases a with
    | record f =>
      simp only [Call.heard?, hintent, Option.some.injEq] at hheard
      subst hheard
      exact .told hphase ha
    | failure e =>
      simp only [Call.heard?, hintent, Option.some.injEq] at hheard
      subst hheard
      exact .refused hphase ha
    | abandoned =>
      simp only [Call.heard?, hintent] at hheard
      cases hheard

end Workbench

end HotComponents
