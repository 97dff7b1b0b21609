import HotComponents.Proofs.Cache.Sound

/-!
# Renewed slots

A slot goes by a ticket: the one it is pending under or the one its record was computed under. While
nothing edits the slot and no compute comes to nothing, it goes by the same ticket until someone
takes a new one for it, so it never falls back behind a ticket that was issued for it. A call that
recomputes takes a ticket of its own; once it has returned a record, its slot goes by that ticket or
a later one.

* `ticket?_step`: what one step makes of the ticket a slot goes by;
* `renews_step`: what recomputing calls made since a given point have brought about;
* `carries_step`, `carries_run`: what a step and a run carry over.
-/

namespace HotComponents

/-- The ticket that a content goes by. -/
def Content.ticket? : Content → Option Nat
  | ready f => f.ticket?
  | pending t _ => some t

/-- The ticket that a slot goes by. -/
def Cache.ticket? (c : Cache) (k : Key) : Option Nat := (c.content? k).bind Content.ticket?

namespace Workbench

variable {w w' w'' : Workbench} {m : Move} {i n first : Nat} {k : Key}

/-- Every ticket that was let go since then was let go with a record: no compute has failed or was
given up. -/
def OnlySucceeds (w w' : Workbench) : Prop :=
  ∀ (t : Nat) (a : Announcement), w'.cache.announcement? t = some a →
    w.cache.announcement? t = none → ∃ f, a = .record f

/-- The slot of a key goes by the ticket `n` or a later one. -/
def Renewed (n : Nat) (k : Key) (w : Workbench) : Prop :=
  ∃ t, w.cache.ticket? k = some t ∧ n ≤ t

/-- What is known of a whole run is known of its beginning. -/
theorem onlySucceeds_of_run (hw : Sound w') {moves : List Move}
    (h : OnlySucceeds w (w'.run moves)) : OnlySucceeds w w' :=
  fun t a ha => h t a (announcement?_run hw ha moves)

/-- What is known since an earlier point is known since a later one. -/
theorem onlySucceeds_later (hw : Sound w) (moves : List Move) (h : OnlySucceeds w w') :
    OnlySucceeds (w.run moves) w' := by
  intro t a ha hnone
  apply h t a ha
  cases hold : w.cache.announcement? t with
  | none => rfl
  | some b =>
    rw [announcement?_run hw hold moves] at hnone
    cases hnone

/-! ## One step -/

/-- A step that edits no slot and lets no compute come to nothing either leaves a slot alone, or
claims it for the next ticket, or redeems the ticket that it is pending under. -/
theorem content?_step (hw : Sound w) (h : Step w m w') (htouch : m.touches k = false)
    (hok : OnlySucceeds w w') :
    w'.cache.content? k = w.cache.content? k ∨
    (∃ d, w.cache.content? k = d.map .ready ∧
      w'.cache.content? k = some (.pending w.cache.nextTicket d)) ∨
    ∃ t d r, w.cache.content? k = some (.pending t d) ∧
      w'.cache.content? k = some (.ready ⟨r, some t⟩) := by
  cases slotStep_of_step h k with
  | same hsame => exact .inl hsame
  | edited htouch' =>
    rw [htouch] at htouch'
    cases htouch'
  | claimed hcall hslot hphase hfree hclaim => exact .inr (.inl ⟨_, hfree, hclaim⟩)
  | @landed i t call d r hcall hphase hpending ha hready =>
    obtain ⟨d', hd'⟩ := Cache.isPending_iff.1 hpending
    exact .inr (.inr ⟨t, d', r, hd', hready⟩)
  | surrendered hcall hphase hpending ha hnone =>
    obtain ⟨f, hf⟩ := hok _ _ ha (hw.unheard hcall hphase)
    exact absurd hf (hnone f)

/-- A slot goes by the same ticket after such a step, or by the one that was taken in it. -/
theorem ticket?_step (hw : Sound w) (h : Step w m w') (htouch : m.touches k = false)
    (hok : OnlySucceeds w w') :
    w'.cache.ticket? k = w.cache.ticket? k ∨ w'.cache.ticket? k = some w.cache.nextTicket := by
  unfold Cache.ticket?
  rcases content?_step hw h htouch hok with hsame | ⟨d, _, hclaimed⟩ | ⟨t, d, r, hold, hnew⟩
  · exact .inl (by rw [hsame])
  · exact .inr (by rw [hclaimed]; rfl)
  · exact .inl (by rw [hold, hnew]; rfl)

/-- No current record is lost in such a step. -/
theorem isSome_current?_step (hw : Sound w) (h : Step w m w') (htouch : m.touches k = false)
    (hok : OnlySucceeds w w') (hcurrent : (w.cache.current? k).isSome) :
    (w'.cache.current? k).isSome := by
  unfold Cache.current? at hcurrent ⊢
  rcases content?_step hw h htouch hok with hsame | ⟨d, hold, hclaimed⟩ | ⟨t, d, r, _, hnew⟩
  · rwa [hsame]
  · rw [hold] at hcurrent
    rw [hclaimed]
    cases d with
    | none => cases hcurrent
    | some f => rfl
  · rw [hnew]
    rfl

/-- While no compute fails and no edit touches the key, a renewed record gives way to renewed ones
only. -/
theorem renewed_step (hw : Sound w) (h : Step w m w') (htouch : m.touches k = false)
    (hok : OnlySucceeds w w') (hn : n ≤ w.cache.nextTicket) (hk : Renewed n k w) :
    Renewed n k w' := by
  obtain ⟨t, ht, hnt⟩ := hk
  rcases ticket?_step hw h htouch hok with hsame | hnew
  · exact ⟨t, hsame.trans ht, hnt⟩
  · exact ⟨w.cache.nextTicket, hnew, hn⟩

/-- A call is never forgotten, and stays for the key it was made for. -/
theorem call_step {call : Call} (h : Step w m w') (hcall : w.calls[i]? = some call) :
    ∃ call', w'.calls[i]? = some call' ∧ call'.key = call.key := by
  cases h with
  | idle => exact ⟨call, hcall, rfl⟩
  | edit => exact ⟨call, hcall, rfl⟩
  | make =>
    have hlt := (List.getElem?_eq_some_iff.1 hcall).1
    exact ⟨call, (List.getElem?_append_left hlt).trans hcall, rfl⟩
  -- The move is the call's own turn, which keeps the key, or that of another call.
  | @turn m j call' c p hcall' hedit hturn =>
    rw [calls_update hcall']
    split
    · next heq =>
      subst heq
      obtain rfl := Option.some.inj (hcall'.symm.trans hcall)
      exact ⟨_, rfl, rfl⟩
    · exact ⟨call, hcall, rfl⟩

/-- A call that has returned a new record after a step had done so before it, or has just landed: it
returns what it has computed, and the record that it displaced. -/
theorem recomputed_step {call : Call} {previous : Option Filed} {f : Filed} (h : Step w m w')
    (hcall : w'.calls[i]? = some call) (hphase : call.phase = .returned (.recomputed previous f)) :
    w.calls[i]? = some call ∨
    ∃ (call' : Call) (t : Nat) (r : Record), w.calls[i]? = some call' ∧
      call'.key = call.key ∧ call'.phase = .computing t previous ∧
      w'.cache = (w.cache.redeem call'.key t r).announce t (.record ⟨r, some t⟩) ∧
      m = .finish i (.ok r) ∧ f = ⟨r, some t⟩ := by
  cases h with
  | idle => exact .inl hcall
  | edit => exact .inl hcall
  | make =>
    rcases calls_make hcall with hold | ⟨_, rfl⟩
    · exact .inl hold
    · cases hphase
  | turn hcall' hedit hturn =>
    rw [calls_update hcall'] at hcall
    split at hcall
    · next heq =>
      subst heq
      obtain rfl := Option.some.inj hcall
      cases hturn with
      | rest => exact .inl hcall'
      | @land t d r hcomputes =>
        rw [Call.phase_atPhase] at hphase
        unfold Call.computedAnswer at hphase
        split at hphase
        · cases hphase
          exact .inr ⟨_, t, r, hcall', rfl, hcomputes, rfl, rfl, rfl⟩
        · cases hphase
      | @hear t a answer hwaits ha hheard =>
        cases hphase
        -- What is heard of is a record or an error, never a record and the one it replaced.
        obtain ⟨_, ⟨_, _, _, hanswer⟩ | ⟨_, _, hanswer⟩⟩ := Call.heard?_eq_some_iff.1 hheard <;>
          cases hanswer
      | _ => cases hphase
    · exact .inl hcall

/-! ## Calls made since a given point -/

/-- What the calls for a slot have brought about that were made when tickets below `n` were issued
and calls below `first` made: one that computes holds the slot, and where one has returned a new
record the slot is renewed. -/
structure Renews (n first : Nat) (k : Key) (w : Workbench) : Prop where
  issued : n ≤ w.cache.nextTicket
  computing : ∀ {i t : Nat} {call : Call} {d : Option Filed}, first ≤ i →
    w.calls[i]? = some call → call.key.slot = k.slot → call.phase = .computing t d →
    n ≤ t ∧ w.cache.content? k = some (.pending t d)
  recomputed : ∀ {i : Nat} {call : Call} {previous : Option Filed} {f : Filed}, first ≤ i →
    w.calls[i]? = some call → call.key.slot = k.slot →
    call.phase = .returned (.recomputed previous f) → Renewed n k w

/-- From here on, all tickets and all calls are new. -/
theorem renews_here (w : Workbench) (k : Key) :
    Renews w.cache.nextTicket w.calls.length k w := by
  have hnone {i : Nat} {call : Call} (hi : w.calls.length ≤ i) : w.calls[i]? ≠ some call := by
    rw [List.getElem?_eq_none hi]
    exact nofun
  exact ⟨Nat.le_refl _, fun hi hcall => absurd hcall (hnone hi),
    fun hi hcall => absurd hcall (hnone hi)⟩

/-- Each such move goes on renewing. -/
theorem renews_step (hw : Sound w) (h : Step w m w') (htouch : m.touches k = false)
    (hok : OnlySucceeds w w') (hk : Renews n first k w) : Renews n first k w' where
  issued := Nat.le_trans hk.issued (nextTicket_step h)
  computing := by
    intro i t call d hi hcall hslot hphase
    rcases computing_step h hcall hphase with
      hold | ⟨_, rfl, hcache, _, _⟩
    · obtain ⟨hnt, hp⟩ := hk.computing hi hold hslot hphase
      refine ⟨hnt, ?_⟩
      -- The slot would leave the ticket only if it was announced, but the call still holds it.
      rcases pending_stays h htouch hp with hstill | ha
      · exact hstill
      · rw [(sound_step hw h).unheard hcall hphase] at ha
        cases ha
    · exact ⟨hk.issued, by rw [hcache, Cache.content?_issue, if_pos hslot.symm]⟩
  recomputed := by
    intro i call previous f hi hcall hslot hphase
    rcases recomputed_step h hcall hphase with
      hold | ⟨call', t, r, hcall', hkey, hphase', hcache, _, _⟩
    · exact renewed_step hw h htouch hok hk.issued (hk.recomputed hi hold hslot hphase)
    · -- The call has just landed in the slot it held.
      have hslot' : call'.key.slot = k.slot := hkey ▸ hslot
      obtain ⟨hnt, hp⟩ := hk.computing hi hcall' hslot' hphase'
      have hown : w.cache.isPending call'.key t :=
        Cache.isPending_iff.2 ⟨previous, (Cache.content?_congr hslot').trans hp⟩
      refine ⟨t, ?_, hnt⟩
      rw [Cache.ticket?, hcache, Cache.content?_announce, Cache.content?_redeem,
        if_pos ⟨hown, hslot'.symm⟩]
      rfl

/-! ## Runs -/

/-- What a run brings about that does not edit a slot and lets no compute come to nothing. -/
structure Carries (k : Key) (w w' : Workbench) : Prop where
  sound : Sound w'
  issued : w.cache.nextTicket ≤ w'.cache.nextTicket
  calls : ∀ {i : Nat} {call : Call}, w.calls[i]? = some call →
    ∃ call', w'.calls[i]? = some call' ∧ call'.key = call.key
  /-- A ticket that the slot is pending under was there before or is new. -/
  pending : ∀ {t : Nat} {d : Option Filed}, w'.cache.content? k = some (.pending t d) →
    w.cache.content? k = some (.pending t d) ∨ w.cache.nextTicket ≤ t
  ticket : w'.cache.ticket? k = w.cache.ticket? k ∨ Renewed w.cache.nextTicket k w'
  current : (w.cache.current? k).isSome → (w'.cache.current? k).isSome
  renews : ∀ {n first : Nat}, Renews n first k w → Renews n first k w'

/-- A workbench carries itself. -/
theorem carries_refl (hw : Sound w) (k : Key) : Carries k w w where
  sound := hw
  issued := Nat.le_refl _
  calls hcall := ⟨_, hcall, rfl⟩
  pending hp := .inl hp
  ticket := .inl rfl
  current := id
  renews := id

/-- A move without failures and without edits of the key carries it. -/
theorem carries_step (hw : Sound w) (h : Step w m w') (htouch : m.touches k = false)
    (hok : OnlySucceeds w w') : Carries k w w' where
  sound := sound_step hw h
  issued := nextTicket_step h
  calls := call_step h
  pending hp := (pending_step h hp).imp_right fun hnew => Nat.le_of_eq hnew.1.symm
  ticket := (ticket?_step hw h htouch hok).imp_right fun hnew => ⟨_, hnew, Nat.le_refl _⟩
  current := isSome_current?_step hw h htouch hok
  renews := renews_step hw h htouch hok

/-- What is carried twice is carried. -/
theorem Carries.trans (h : Carries k w w') (h' : Carries k w' w'') : Carries k w w'' where
  sound := h'.sound
  issued := Nat.le_trans h.issued h'.issued
  calls hcall := by
    obtain ⟨call', hcall', hkey⟩ := h.calls hcall
    obtain ⟨call'', hcall'', hkey'⟩ := h'.calls hcall'
    exact ⟨call'', hcall'', hkey'.trans hkey⟩
  pending hp := by
    rcases h'.pending hp with hold | hnew
    · exact h.pending hold
    · exact .inr (Nat.le_trans h.issued hnew)
  -- The later part has the last word on the ticket, and leaves it to the earlier one if it does not
  -- change it.
  ticket := by
    rcases h'.ticket with hsame | ⟨t, ht, hnt⟩
    · rcases h.ticket with hsame' | ⟨t, ht, hnt⟩
      · exact .inl (hsame.trans hsame')
      · exact .inr ⟨t, hsame.trans ht, hnt⟩
    · exact .inr ⟨t, ht, Nat.le_trans h.issued hnt⟩
  current hcurrent := h'.current (h.current hcurrent)
  renews hk := h'.renews (h.renews hk)

/-- Such moves carry the key one after the other. -/
theorem carries_run (hw : Sound w) {moves : List Move} (htouch : ∀ m ∈ moves, m.touches k = false)
    (hok : OnlySucceeds w (w.run moves)) : Carries k w (w.run moves) := by
  induction moves generalizing w with
  | nil => exact carries_refl hw k
  | cons m moves ih =>
    have h := step_apply w m
    have hw' := sound_step hw h
    rw [List.forall_mem_cons] at htouch
    rw [run_cons] at hok ⊢
    have hfirst := carries_step hw h htouch.1 (onlySucceeds_of_run hw' hok)
    exact hfirst.trans (ih hw' htouch.2 (onlySucceeds_later hw [m] hok))

/-- Calls are never taken back. -/
theorem Carries.length_le (h : Carries k w w') : w.calls.length ≤ w'.calls.length := by
  apply Classical.byContradiction
  intro hlt
  obtain ⟨_, hcall, _⟩ := h.calls (List.getElem?_eq_getElem (Nat.lt_of_not_le hlt))
  have hin := (List.getElem?_eq_some_iff.1 hcall).1
  omega

/-- A renewed slot stays renewed. -/
theorem Carries.renewed (h : Carries k w w') (hn : n ≤ w.cache.nextTicket) (hk : Renewed n k w) :
    Renewed n k w' := by
  obtain ⟨t, ht, hnt⟩ := hk
  rcases h.ticket with hsame | ⟨u, hu, hle⟩
  · exact ⟨t, hsame.trans ht, hnt⟩
  · exact ⟨u, hu, Nat.le_trans hn hle⟩

end Workbench

end HotComponents
