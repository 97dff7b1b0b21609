import HotComponents.Proofs.Cache.Current

/-!
# Superseded computes

An edit of a slot cuts off every compute that was invoked for it before: whatever such a compute
still comes to, its record is never the current one of the slot again, and no call that starts later
returns it. Those who already waited for it are served all the same.

* `cutOff_edit`, `cutOff_run`: the cut that an edit makes, and that it lasts;
* `heard_by_waiter`: a success reaches whoever waits for it and takes it;
* `superseded_compute_stays_out`: both sides together.
-/

namespace HotComponents

/-- The record was put into its slot as it is, or computed under the ticket `n` or a later one. -/
def Filed.Since (n : Nat) (f : Filed) : Prop := ∀ t, f.ticket? = some t → n ≤ t

/-- A record in what a call takes of an announcement is the one that was announced. -/
theorem Call.heard?_records {call : Call} {a : Announcement} {answer : Answer Filed} {f : Filed}
    (h : call.heard? a = some answer) (hf : f ∈ answer.records) : a = .record f := by
  rcases Call.heard?_eq_some_iff.1 h with ⟨_, ⟨g, rfl, _, rfl⟩ | ⟨e, rfl, rfl⟩⟩
  · rw [List.mem_singleton.1 hf]
  · cases hf

namespace Workbench

variable {w w' : Workbench} {m : Move} {i j n : Nat} {k : Key} {late : Nat → Prop}

/-- Call number `i` has not looked at its slot yet, or is still to be made. -/
def isYetToStart (w : Workbench) (i : Nat) : Bool :=
  match w.phase? i with
  | none => true
  | some .arriving => true
  | _ => false

/-- A record that a call has returned after a step was returned before it, or has just been found in
the slot, heard of, displaced or computed. -/
theorem returned_step {call : Call} {a : Answer Filed} {f : Filed} (h : Step w m w')
    (hcall : w'.calls[i]? = some call) (hphase : call.phase = .returned a) (hf : f ∈ a.records) :
    w.calls[i]? = some call ∨ w.cache.content? call.key = some (.ready f) ∨
    ∃ call' : Call, w.calls[i]? = some call' ∧ call'.key = call.key ∧
      ((∃ t, call'.phase = .waiting t ∧ w.cache.announcement? t = some (.record f)) ∨
        ∃ t d, call'.phase = .computing t d ∧ (d = some f ∨ f.ticket? = some t)) := by
  cases h with
  | idle => exact .inl hcall
  | edit => exact .inl hcall
  | make =>
    rcases calls_make hcall with hold | ⟨_, rfl⟩
    · exact .inl hold
    · cases hphase
  | turn hcall' hedit hturn =>
    rw [calls_update hcall'] at hcall
    split at hcall
    · next heq =>
      subst heq
      obtain rfl := Option.some.inj hcall
      -- One case for each turn that can return a record: where it comes from is what the turn
      -- knows.
      cases hturn with
      | rest => exact .inl hcall'
      | hit hlook hready =>
        cases hphase
        rw [List.mem_singleton.1 hf]
        exact .inr (.inl hready)
      | miss =>
        cases hphase
        cases hf
      | hear hwaits ha hheard =>
        cases hphase
        obtain rfl := Call.heard?_records hheard hf
        exact .inr (.inr ⟨_, hcall', rfl, .inl ⟨_, hwaits, ha⟩⟩)
      | @land t d r hcomputes =>
        cases hphase
        refine .inr (.inr ⟨_, hcall', rfl, .inr ⟨t, d, hcomputes, ?_⟩⟩)
        unfold Call.computedAnswer at hf
        split at hf
        · simp only [Answer.records, List.mem_append, Option.mem_toList, List.mem_singleton] at hf
          rcases hf with hd | rfl
          · exact .inl hd
          · exact .inr rfl
        · rw [List.mem_singleton.1 hf]
          exact .inr rfl
      | fail =>
        cases hphase
        cases hf
      | wait => cases hphase
      | lead => cases hphase
      | quit => cases hphase
      | leave => cases hphase
    · exact .inl hcall

/-! ## The cut -/

/-- The slot of a key is cut off from the tickets below `n`: none of its records is from one of
them, and the late calls for it neither wait for one of them nor hold a record from one. -/
structure CutOff (n : Nat) (k : Key) (late : Nat → Prop) (w : Workbench) : Prop where
  issued : n ≤ w.cache.nextTicket
  current : ∀ {f : Filed}, w.cache.current? k = some f → f.Since n
  pending : ∀ {t : Nat} {d : Option Filed}, w.cache.content? k = some (.pending t d) → n ≤ t
  waiting : ∀ {i t : Nat} {call : Call}, late i → w.calls[i]? = some call →
    call.key.slot = k.slot → call.phase = .waiting t → n ≤ t
  computing : ∀ {i t : Nat} {call : Call} {d : Option Filed}, late i → w.calls[i]? = some call →
    call.key.slot = k.slot → call.phase = .computing t d → n ≤ t ∧ ∀ f, d = some f → f.Since n
  returned : ∀ {i : Nat} {call : Call} {a : Answer Filed}, late i → w.calls[i]? = some call →
    call.key.slot = k.slot → call.phase = .returned a → ∀ f ∈ a.records, f.Since n

/-- An edit cuts the slots it touches off from all tickets issued so far, as far as the calls are
concerned that are yet to start. -/
theorem cutOff_edit (w : Workbench) {x : Move} (htouch : x.touches k) :
    CutOff w.cache.nextTicket k (fun i => (w.apply x).isYetToStart i) (w.apply x) := by
  have happly := apply_of_isEdit (Move.isEdit_of_touches htouch) w
  have hcontent : (w.apply x).cache.content? k = x.put? := by
    rw [happly]
    exact (w.cache.content?_edit x k).trans (if_pos htouch)
  have hnext : (w.apply x).cache.nextTicket = w.cache.nextTicket := by
    rw [happly]
    exact w.cache.nextTicket_edit x
  -- The calls that are cut off have not looked at the slot, so they hold nothing.
  have hstart {i : Nat} {call : Call} (hlate : (w.apply x).isYetToStart i)
      (hcall : (w.apply x).calls[i]? = some call) : call.phase = .arriving := by
    simp only [isYetToStart, phase?, hcall, Option.map_some] at hlate
    split at hlate <;> simp_all
  constructor
  · exact Nat.le_of_eq hnext.symm
  · -- What the edit put was not computed.
    intro f hf t ht
    simp only [Cache.current?, hcontent] at hf
    cases x <;> simp [Move.put?, Content.current?] at hf
    rw [← hf] at ht
    cases ht
  · intro t d hp
    rw [hcontent] at hp
    cases x <;> cases hp
  · intro i t call hlate hcall _ hphase
    rw [hstart hlate hcall] at hphase
    cases hphase
  · intro i t call d hlate hcall _ hphase
    rw [hstart hlate hcall] at hphase
    cases hphase
  · intro i call a hlate hcall _ hphase
    rw [hstart hlate hcall] at hphase
    cases hphase

/-- A record that is current after a step was so before it, was put directly, or was computed under
the ticket that the slot was pending under. -/
theorem current_step {f : Filed} (hw : Sound w) (hf : (w.apply m).cache.current? k = some f) :
    w.cache.current? k = some f ∨ f.ticket? = none ∨
      ∃ t, f.ticket? = some t ∧ w.cache.isPending k t := by
  rw [current?_apply hw] at hf
  cases m with
  | finish i result =>
    cases result with
    | error e => exact .inl hf
    | ok r =>
      -- A success is stored only if the call holds its slot, under the ticket it holds.
      cases hh : w.holding? i with
      | none =>
        simp only [currentAfter, hh] at hf
        exact .inl hf
      | some held =>
        obtain ⟨l, t⟩ := held
        simp only [currentAfter, hh] at hf
        split at hf
        · next hk =>
          cases hf
          refine .inr (.inr ⟨t, rfl, ?_⟩)
          obtain ⟨d, hd⟩ := Cache.isPending_iff.1 (isPending_of_holding? hh)
          exact Cache.isPending_iff.2 ⟨d, (Cache.content?_congr (Key.same_iff.1 hk)).trans hd⟩
        · exact .inl hf
  | replace r =>
    simp only [currentAfter] at hf
    split at hf
    · cases hf
      exact .inr (.inl rfl)
    · exact .inl hf
  | invalidate file =>
    simp only [currentAfter] at hf
    split at hf
    · cases hf
    · exact .inl hf
  | invalidateKey l =>
    simp only [currentAfter] at hf
    split at hf
    · cases hf
    · exact .inl hf
  | clear => cases hf
  | _ => exact .inl hf

/-- What one move preserves: nothing from before the cut comes back into the slot or to a late
call. -/
theorem cutOff_step (hw : Sound w) (h : CutOff n k late w) (m : Move) :
    CutOff n k late (w.apply m) := by
  have hstep := step_apply w m
  have hready {l : Key} {f : Filed} (hl : l.slot = k.slot)
      (hf : w.cache.content? l = some (.ready f)) : f.Since n := by
    rw [Cache.content?_congr hl] at hf
    exact h.current (by simp [Cache.current?, hf, Content.current?])
  constructor
  · exact Nat.le_trans h.issued (nextTicket_step hstep)
  · -- A record that becomes current is put, or comes from the ticket the slot is pending under.
    intro f hf t ht
    rcases current_step hw hf with hold | hnone | ⟨u, hu, hp⟩
    · exact h.current hold t ht
    · rw [hnone] at ht
      cases ht
    · obtain ⟨d, hd⟩ := Cache.isPending_iff.1 hp
      rw [hu] at ht
      cases ht
      exact h.pending hd
  · intro t d hp
    -- A new ticket is not below the cut, as all below it were issued.
    rcases pending_step hstep hp with hold | ⟨rfl, _⟩
    · exact h.pending hold
    · exact h.issued
  · -- A late call waits for the ticket it finds in its slot.
    intro i t call hlate hcall hslot hphase
    rcases waiting_step hstep hcall hphase with hold | ⟨_, _, ⟨d, hp⟩, _⟩
    · exact h.waiting hlate hold hslot hphase
    · exact h.pending ((Cache.content?_congr hslot).symm.trans hp)
  · intro i t call d hlate hcall hslot hphase
    -- Who has just taken a ticket has displaced what the slot held.
    rcases computing_step hstep hcall hphase with
      hold | ⟨_, rfl, _, hfree, _⟩
    · exact h.computing hlate hold hslot hphase
    · refine ⟨h.issued, ?_⟩
      rintro f rfl
      exact hready hslot hfree
  · -- A late call gets its records from the slot, from its own ticket or from one it waits for.
    intro i call a hlate hcall hslot hphase f hf
    rcases returned_step hstep hcall hphase hf with
      hold | hfound | ⟨call', hcall', hkey, ⟨t, hwaits, ha⟩ | ⟨t, d, hcomputes, hd⟩⟩
    · exact h.returned hlate hold hslot hphase f hf
    · exact hready hslot hfound
    · intro u hu
      rw [hw.announcedOwn ha] at hu
      cases hu
      exact h.waiting hlate hcall' (hkey ▸ hslot) hwaits
    · obtain ⟨ht, hdisplaced⟩ := h.computing hlate hcall' (hkey ▸ hslot) hcomputes
      rcases hd with hd | hown
      · exact hdisplaced f hd
      · intro u hu
        rw [hown] at hu
        cases hu
        exact ht

/-- Nothing from before the cut comes back in a run. -/
theorem cutOff_run (hw : Sound w) (h : CutOff n k late w) (moves : List Move) :
    CutOff n k late (w.run moves) :=
  kept_run cutOff_step hw h moves

/-! ## Those who wait -/

/-- A call that waits goes on waiting while it is neither resumed nor cancelled. -/
theorem waiting_stays {call : Call} {t : Nat} (h : Step w m w') (hcall : w.calls[j]? = some call)
    (hphase : call.phase = .waiting t) (hresume : m ≠ .resume j) (hcancel : m ≠ .cancel j) :
    w'.calls[j]? = some call := by
  cases h with
  | idle => exact hcall
  | edit => exact hcall
  | make =>
    rw [List.getElem?_append_left (List.getElem?_eq_some_iff.1 hcall).1]
    exact hcall
  | @turn m i call' c p hcall' hedit hturn =>
    rw [calls_update hcall']
    split
    · next heq =>
      subst heq
      obtain rfl := Option.some.inj (hcall'.symm.trans hcall)
      have hidle {t' : Nat} {d : Option Filed} : call'.phase ≠ .computing t' d := by
        simp [hphase]
      cases hturn with
      | rest => rfl
      | land hcomputes => exact absurd hcomputes hidle
      | fail hcomputes => exact absurd hcomputes hidle
      | quit => exact absurd rfl hcancel
      | leave => exact absurd rfl hcancel
      | _ => exact absurd rfl hresume
    · exact hcall

/-- A record that is announced reaches a call that waits for it and takes it: unless the call is
cancelled, it waits and can go on until it is resumed, and has returned the record ever after. -/
theorem heard_by_waiter {call : Call} {t : Nat} {f : Filed} (hw : Sound w)
    (hcall : w.calls[j]? = some call) (hphase : call.phase = .waiting t)
    (ha : w.cache.announcement? t = some (.record f)) (hintent : call.intent ≠ .recompute)
    (haccepts : call.reuse.accepts f.record) {moves : List Move} (hstays : .cancel j ∉ moves) :
    (w.run moves).phase? j = some (.returned (.record f)) ∨
      (w.run moves).phase? j = some (.waiting t) ∧ (w.run moves).isRunnable j ∧
        .resume j ∉ moves := by
  have hheard : call.heard? (.record f) = some (.record f) :=
    Call.heard?_eq_some_iff.2 ⟨hintent, .inl ⟨f, rfl, haccepts, rfl⟩⟩
  -- On the moves: as long as none of them resumes the call it waits, and the announcement stays.
  induction moves generalizing w with
  | nil =>
    right
    refine ⟨by simp [run, phase?, hcall, hphase], ?_, by simp⟩
    simp [run, isRunnable, hcall, Call.isRunnable, hphase, ha]
  | cons m moves ih =>
    have hstep := step_apply w m
    rw [List.mem_cons, not_or] at hstays
    -- The first resumption hears the record; until then nothing but a cancellation moves the call.
    by_cases hresume : m = .resume j
    · left
      subst hresume
      have hdone : (w.apply (.resume j)).calls[j]? =
          some (call.atPhase (.returned (.record f))) := by
        simp only [apply, hcall, Call.resume, hphase, ha, hheard]
        rw [calls_update hcall, if_pos rfl]
      simp [run_cons, phase?, ended_run hdone rfl moves]
    · have hwaits := waiting_stays hstep hcall hphase hresume (Ne.symm hstays.1)
      rcases ih (sound_step hw hstep) hwaits (announcement?_step hw hstep ha) hstays.2 with
        hdone | ⟨hstill, hrun, hnot⟩
      · exact .inl hdone
      · exact .inr ⟨hstill, hrun, by simp [Ne.symm hresume, hnot]⟩

/-- A success is announced to all who wait for it, also when its slot was taken from it. -/
theorem announcement?_finish {call : Call} {t : Nat} {d : Option Filed}
    (hcall : w.calls[i]? = some call) (hphase : call.phase = .computing t d) (r : Record) :
    (w.apply (.finish i (.ok r))).cache.announcement? t = some (.record ⟨r, some t⟩) := by
  simp [apply, hcall, Call.finish, hphase, update, Cache.announcement?_announce]

/-- A superseded compute never comes back. When an edit touches the slot of a key, a record that is
computed under a ticket taken before is never the current one of the slot again, and no call for the
key that starts later returns it. All the same, every call that already waits for a compute when
that succeeds, and takes its record, returns that record as soon as it is resumed, unless it is
cancelled. -/
theorem superseded_compute_stays_out :
    (∀ (earlier later : List Move) (x : Move) (moves : List Move) (k : Key) (i t : Nat)
        (d : Option Filed),
      (after earlier).phase? i = some (.computing t d) → x.touches k →
      let w := (after (earlier ++ later)).apply x
      (∀ f, (w.run moves).cache.current? k = some f → f.ticket? ≠ some t) ∧
      ∀ (j : Nat) (call : Call) (a : Answer Filed), w.isYetToStart j →
        (w.run moves).calls[j]? = some call → call.key.slot = k.slot →
        call.phase = .returned a → ∀ f ∈ a.records, f.ticket? ≠ some t) ∧
    ∀ (before moves : List Move) (i j t : Nat) (d : Option Filed) (call : Call) (r : Record),
      (after before).phase? i = some (.computing t d) →
      (after before).calls[j]? = some call → call.phase = .waiting t →
      call.intent ≠ .recompute → call.reuse.accepts r → .cancel j ∉ moves →
      let w := ((after before).apply (.finish i (.ok r))).run moves
      w.phase? j = some (.returned (.record ⟨r, some t⟩)) ∨
        w.phase? j = some (.waiting t) ∧ w.isRunnable j ∧ .resume j ∉ moves := by
  constructor
  · intro earlier later x moves k i t d hcomputes htouch w
    -- The ticket of the compute is older than the edit, and the cut keeps out all such tickets.
    have hearly : t < (after (earlier ++ later)).cache.nextTicket := by
      obtain ⟨call, hcall, hphase⟩ := Option.map_eq_some_iff.1 hcomputes
      have hissued := (sound_after earlier).computingIssued hcall hphase
      rw [after_append]
      exact Nat.lt_of_lt_of_le hissued (nextTicket_le_run _ later)
    have hcut : CutOff _ k (fun j => w.isYetToStart j) (w.run moves) :=
      cutOff_run (sound_step (sound_after _) (step_apply _ x)) (cutOff_edit _ htouch) moves
    have hnot {f : Filed} (hf : f.Since (after (earlier ++ later)).cache.nextTicket) :
        f.ticket? ≠ some t := by
      intro ht
      exact absurd (hf t ht) (Nat.not_le_of_lt hearly)
    exact ⟨fun f hf => hnot (hcut.current hf), fun j call a hlate hcall hslot hphase f hf =>
      hnot (hcut.returned hlate hcall hslot hphase f hf)⟩
  · -- The success announces its record, and a waiting call keeps waiting until it hears it.
    intro before moves i j t d call r hcomputes hcall hphase hintent haccepts hstays w
    obtain ⟨leader, hleader, hleads⟩ := Option.map_eq_some_iff.1 hcomputes
    have hstep := step_apply (after before) (.finish i (.ok r))
    have hwaits := waiting_stays hstep hcall hphase (by simp) (by simp)
    exact heard_by_waiter (sound_step (sound_after before) hstep) hwaits hphase
      (announcement?_finish hleader hleads r) hintent haccepts hstays

/-- A slot is invalidated while it is computed under ticket 0 and call 1 waits, and computed anew by
call 2. The old record comes too late for the slot and for call 2, but call 1 is served with it. -/
theorem superseded_compute_stays_out_invalidated :
    let inFlight : List Move :=
      [.make Sample.key (.obtain .any), .resume 0, .make Sample.key .settle, .resume 1]
    let superseded : List Move :=
      inFlight ++ [.invalidateKey Sample.key, .make Sample.key (.obtain .any), .resume 2]
    let old : Record := Sample.record "old"
    let new : Filed := ⟨Sample.record "new", some 1⟩
    let w := ((after (inFlight ++ [])).apply (.invalidateKey Sample.key)).run
      [.make Sample.key (.obtain .any), .resume 2, .finish 0 (.ok old), .finish 2 (.ok new.record)]
    (after inFlight).phase? 0 = some (.computing 0 none) ∧
    (w.cache.current? Sample.key = some new ∧ new.ticket? ≠ some 0) ∧
    (w.phase? 2 = some (.returned (.record new)) ∧ new.ticket? ≠ some 0) ∧
    (((after superseded).apply (.finish 0 (.ok old))).run [.resume 1]).phase? 1 =
      some (.returned (.record ⟨old, some 0⟩)) := by
  intro inFlight superseded old new w
  have hout := superseded_compute_stays_out.1 inFlight [] (.invalidateKey Sample.key)
    [.make Sample.key (.obtain .any), .resume 2, .finish 0 (.ok old), .finish 2 (.ok new.record)]
    Sample.key 0 0 none (by decide) (by decide)
  have hcurrent : w.cache.current? Sample.key = some new := by decide
  have hserved := superseded_compute_stays_out.2 superseded [.resume 1] 0 1 0 none
    ⟨Sample.key, .settle, .waiting 0⟩ old (by decide) (by decide) rfl (by decide) rfl (by simp)
  refine ⟨by decide, ⟨hcurrent, hout.1 new hcurrent⟩, ⟨by decide, ?_⟩, ?_⟩
  · exact hout.2 2 ⟨Sample.key, .obtain .any, .returned (.record new)⟩ (.record new)
      (by decide) (by decide) rfl rfl new (List.mem_singleton_self new)
  · rcases hserved with hdone | ⟨_, _, hnot⟩
    · exact hdone
    · exact absurd (List.mem_singleton_self _) hnot

end Workbench

end HotComponents
