import HotComponents.Proofs.Cache.Step

/-!
# Tickets and their holders

What holds at a workbench after every run: a slot is pending under a ticket exactly while the call
that took the ticket computes, tickets are issued in order and held by one call each, and nothing is
announced of a ticket before its holder lets it go.

* `pending_step`, `computing_step`, `announced_step`: where pending slots, computing calls and
  announcements come from;
* `sound_after`: every run leads to a sound workbench;
* `kept_run_of`, `kept_run`: what each move keeps at a sound workbench, a run keeps;
* `announcement?_run`: what is announced stays announced.
-/

namespace HotComponents

namespace Call

@[simp] theorem key_atPhase (call : Call) (p : Phase) : (call.atPhase p).key = call.key := rfl

@[simp] theorem intent_atPhase (call : Call) (p : Phase) : (call.atPhase p).intent = call.intent :=
  rfl

@[simp] theorem phase_atPhase (call : Call) (p : Phase) : (call.atPhase p).phase = p := rfl

end Call

namespace Workbench

variable {w w' : Workbench} {m : Move} {i j : Nat} {call : Call} {k : Key} {t : Nat}
  {d : Option Filed}

/-- The workbench after a run from an empty cache. -/
def after (moves : List Move) : Workbench := run {} moves

theorem after_append (moves more : List Move) : after (moves ++ more) = (after moves).run more :=
  run_append {} moves more

theorem run_cons (w : Workbench) (m : Move) (moves : List Move) :
    w.run (m :: moves) = (w.apply m).run moves := rfl

/-- An update gives one call a new standing and leaves the others as they are. -/
theorem calls_update (hcall : w.calls[i]? = some call) (c : Cache) (call' : Call) (j : Nat) :
    (w.update i c call').calls[j]? = if i = j then some call' else w.calls[j]? := by
  have hlt : i < w.calls.length := (List.getElem?_eq_some_iff.1 hcall).1
  unfold update
  rw [List.getElem?_set]
  by_cases hij : i = j
  · simp [hij, hij ▸ hlt]
  · simp [hij]

/-- A call that is there after a call was made was there before, or is the new one. -/
theorem calls_make {key : Key} {intent : Intent}
    (hcall : (w.calls ++ [({ key, intent } : Call)])[j]? = some call) :
    w.calls[j]? = some call ∨ j = w.calls.length ∧ call = { key, intent } := by
  rcases Nat.lt_or_ge j w.calls.length with hlt | hge
  · rw [List.getElem?_append_left hlt] at hcall
    exact .inl hcall
  · rw [List.getElem?_append_right hge] at hcall
    obtain ⟨hlen, hnew⟩ := List.getElem?_eq_some_iff.1 hcall
    simp only [List.length_singleton] at hlen
    simp only [List.getElem_singleton] at hnew
    exact .inr ⟨by omega, hnew.symm⟩

/-! ## Where things come from -/

/-- A call that computes after a step computed before it, or has just taken the next ticket. -/
theorem computing_step (h : Step w m w') (hcall : w'.calls[i]? = some call)
    (hphase : call.phase = .computing t d) :
    w.calls[i]? = some call ∨
    (m = .resume i ∧ t = w.cache.nextTicket ∧ w'.cache = w.cache.issue call.key d ∧
      w.cache.content? call.key = d.map .ready ∧
      ∃ call', w.calls[i]? = some call' ∧ call'.key = call.key ∧ call'.Looks w.cache) := by
  -- Nothing but a turn of this call can make it compute, and only the turn that takes a ticket
  -- does.
  cases h with
  | idle => exact .inl hcall
  | edit => exact .inl hcall
  | make =>
    rcases calls_make hcall with hold | ⟨_, rfl⟩
    · exact .inl hold
    · cases hphase
  | turn hcall' hedit hturn =>
    rw [calls_update hcall'] at hcall
    split at hcall
    · next heq =>
      subst heq
      obtain rfl := Option.some.inj hcall
      cases hturn with
      | rest => exact .inl hcall'
      | lead hlook hfree =>
        cases hphase
        exact .inr ⟨rfl, rfl, rfl, hfree, _, hcall', rfl, hlook⟩
      | _ => cases hphase
    · exact .inl hcall

/-- A call that computes goes on to compute, or it has ended and its ticket is no longer pending. -/
theorem computing_stays (h : Step w m w') (hcall : w.calls[i]? = some call)
    (hphase : call.phase = .computing t d) :
    w'.calls[i]? = some call ∨
    ((∃ call', w'.calls[i]? = some call' ∧ call'.hasEnded) ∧
      ∀ k, k.slot = call.key.slot → ¬ w'.cache.isPending k t) := by
  -- Only a turn of this very call can end its compute. It has looked at its slot already, so the
  -- turns that begin with a look are out.
  cases h with
  | idle => exact .inl hcall
  | edit => exact .inl hcall
  | make =>
    left
    have hlt := (List.getElem?_eq_some_iff.1 hcall).1
    rw [List.getElem?_append_left hlt]
    exact hcall
  | @turn m i' call' c p hcall' hedit hturn =>
    by_cases heq : i' = i
    · subst heq
      obtain rfl := Option.some.inj (hcall'.symm.trans hcall)
      have hlooks := Call.not_looks_of_computing hphase w.cache
      have hnow {c' : Cache} (p' : Phase) :
          (w.update i' c' (call'.atPhase p')).calls[i']? = some (call'.atPhase p') := by
        rw [calls_update hcall', if_pos rfl]
      -- Once the ticket is redeemed or surrendered, its slot is ready, vacant or someone else's.
      have hgone {c' : Cache} {content : Option Content}
          (hc' : ∀ k, c'.content? k = if w.cache.isPending call'.key t ∧ k.slot = call'.key.slot
            then content else w.cache.content? k)
          (hcontent : ∀ d', content ≠ some (.pending t d')) (k : Key)
          (hk : k.slot = call'.key.slot) : ¬ c'.isPending k t := by
        intro hp
        obtain ⟨d', hd'⟩ := Cache.isPending_iff.1 hp
        rw [hc'] at hd'
        split at hd'
        · exact hcontent d' hd'
        · next hnot =>
          rw [Cache.content?_congr hk] at hd'
          exact hnot ⟨Cache.isPending_iff.2 ⟨d', hd'⟩, hk⟩
      cases hturn with
      | rest => exact .inl (hnow _)
      | hit hlook => exact absurd hlook hlooks
      | miss hlook => exact absurd hlook hlooks
      | wait hlook => exact absurd hlook hlooks
      | lead hlook => exact absurd hlook hlooks
      | hear hwait =>
        rw [hphase] at hwait
        cases hwait
      | @land t' d' r hp =>
        rw [hphase] at hp
        cases hp
        exact .inr ⟨⟨_, hnow _, rfl⟩, hgone (w.cache.content?_redeem call'.key · t r) (by simp)⟩
      | @fail t' d' e hp =>
        rw [hphase] at hp
        cases hp
        exact .inr ⟨⟨_, hnow _, rfl⟩,
          hgone (w.cache.content?_surrender call'.key · t d) (by cases d <;> simp)⟩
      | @quit t' d' hp =>
        rw [hphase] at hp
        cases hp
        exact .inr ⟨⟨_, hnow _, rfl⟩,
          hgone (w.cache.content?_surrender call'.key · t d) (by cases d <;> simp)⟩
      | leave hopen =>
        rw [hphase] at hopen
        rcases hopen with hopen | ⟨_, hopen⟩ <;> cases hopen
    · left
      rw [calls_update hcall', if_neg heq]
      exact hcall

/-- What a step does to the content of one slot. -/
inductive SlotStep (w : Workbench) (m : Move) (w' : Workbench) (k : Key) : Prop where
  | same (hsame : w'.cache.content? k = w.cache.content? k)
  | edited (htouch : m.touches k) (hput : w'.cache.content? k = m.put?)
  /-- It is claimed for the next ticket. -/
  | claimed {i : Nat} {call : Call} {d : Option Filed} (hcall : w'.calls[i]? = some call)
      (hslot : call.key.slot = k.slot) (hphase : call.phase = .computing w.cache.nextTicket d)
      (hfree : w.cache.content? k = d.map .ready)
      (hclaim : w'.cache.content? k = some (.pending w.cache.nextTicket d))
  /-- The ticket it is pending under is redeemed. -/
  | landed {i t : Nat} {call : Call} {d : Option Filed} {r : Record}
      (hcall : w.calls[i]? = some call) (hphase : call.phase = .computing t d)
      (hpending : w.cache.isPending k t)
      (ha : w'.cache.announcement? t = some (.record ⟨r, some t⟩))
      (hready : w'.cache.content? k = some (.ready ⟨r, some t⟩))
  /-- The ticket it is pending under is given up. -/
  | surrendered {i t : Nat} {call : Call} {d : Option Filed} {a : Announcement}
      (hcall : w.calls[i]? = some call) (hphase : call.phase = .computing t d)
      (hpending : w.cache.isPending k t) (ha : w'.cache.announcement? t = some a)
      (hnone : ∀ f, a ≠ .record f) (hback : w'.cache.content? k = d.map .ready)

/-- Each step does one of the listed things to each slot. -/
theorem slotStep_of_step (h : Step w m w') (k : Key) : SlotStep w m w' k := by
  cases h with
  | idle => exact .same rfl
  | make => exact .same rfl
  | edit =>
    by_cases htouch : m.touches k
    · exact .edited htouch ((Cache.content?_edit _ _ _).trans (if_pos htouch))
    · exact .same ((Cache.content?_edit _ _ _).trans (if_neg htouch))
  | @turn m i call c p hcall hedit hturn =>
    -- A ticket that is held for the key of the call is held for every key of the slot.
    have hown {t : Nat} (h : w.cache.isPending call.key t ∧ k.slot = call.key.slot) :
        w.cache.isPending k t := by
      obtain ⟨d, hd⟩ := Cache.isPending_iff.1 h.1
      exact Cache.isPending_iff.2 ⟨d, (Cache.content?_congr h.2).trans hd⟩
    -- A compute that fails and one that is given up empty the slot alike; they differ in what is
    -- announced.
    have hsurrender {t : Nat} {d : Option Filed} {a : Announcement} {p : Phase}
        (hphase : call.phase = .computing t d) (hnone : ∀ f, a ≠ .record f) :
        SlotStep w m
          (w.update i ((w.cache.surrender call.key t d).announce t a) (call.atPhase p)) k := by
      have hafter := w.cache.content?_surrender call.key k t d
      by_cases h : w.cache.isPending call.key t ∧ k.slot = call.key.slot
      · refine .surrendered hcall hphase (hown h) ?_ hnone (hafter.trans (if_pos h))
        exact (Cache.announcement?_announce _ _ _ _).trans (if_pos rfl)
      · exact .same (hafter.trans (if_neg h))
    -- The ticket is taken, redeemed or given up. Other turns leave all slots alone, and these leave
    -- the slots of other keys alone.
    cases hturn with
    | @lead d hlook hfree =>
      have hafter := w.cache.content?_issue call.key k d
      by_cases hk : k.slot = call.key.slot
      · have hcall' : (w.update i (w.cache.issue call.key d)
            (call.atPhase (.computing w.cache.nextTicket d))).calls[i]? =
            some (call.atPhase (.computing w.cache.nextTicket d)) := by
          rw [calls_update hcall, if_pos rfl]
        exact .claimed hcall' hk.symm rfl ((Cache.content?_congr hk).trans hfree)
          (hafter.trans (if_pos hk))
      · exact .same (hafter.trans (if_neg hk))
    | @land t d r hphase =>
      have hafter := w.cache.content?_redeem call.key k t r
      by_cases h : w.cache.isPending call.key t ∧ k.slot = call.key.slot
      · refine .landed hcall hphase (hown h) ?_ (hafter.trans (if_pos h))
        exact (Cache.announcement?_announce _ _ _ _).trans (if_pos rfl)
      · exact .same (hafter.trans (if_neg h))
    | @fail t d e hphase => exact hsurrender hphase (call.failureAnnouncement_ne_record e)
    | quit hphase => exact hsurrender hphase nofun
    | _ => exact .same rfl

/-- A slot that is pending after a step was pending before it, or has just been claimed. -/
theorem pending_step (h : Step w m w') (hp : w'.cache.content? k = some (.pending t d)) :
    w.cache.content? k = some (.pending t d) ∨
    (t = w.cache.nextTicket ∧
      ∃ (i : Nat) (call : Call),
        w'.calls[i]? = some call ∧ call.key.slot = k.slot ∧ call.phase = .computing t d) := by
  -- A slot does not become pending by an edit, and no ticket that is let go leaves it so.
  cases slotStep_of_step h k with
  | same hsame => exact .inl (hsame.symm.trans hp)
  | edited htouch hput =>
    rw [hp] at hput
    cases m <;> cases hput
  | claimed hcall hslot hphase hfree hclaim =>
    cases hp.symm.trans hclaim
    exact .inr ⟨rfl, _, _, hcall, hslot, hphase⟩
  | landed hcall hphase hpending ha hready => cases hp.symm.trans hready
  | surrendered hcall hphase hpending ha hnone hback =>
    rw [hp, eq_comm] at hback
    simp at hback

/-- What is announced behind a turn was announced before it, or the call has just let the ticket
go. -/
theorem announced_turn {c c' : Cache} {p : Phase} {a : Announcement} (h : Turn c call i m c' p)
    (ha : c'.announcement? t = some a) :
    c.announcement? t = some a ∨
    ∃ d, call.phase = .computing t d ∧ (call.atPhase p).hasEnded ∧ call.Releases i t m a := by
  -- Only the ticket in hand is announced, so what is said of another one was said before.
  have hreleased {c₀ : Cache} {u : Nat} {b : Announcement}
      (hsame : c₀.announcement? t = c.announcement? t)
      (hb : (c₀.announce u b).announcement? t = some a) :
      c.announcement? t = some a ∨ u = t ∧ b = a := by
    rw [Cache.announcement?_announce] at hb
    split at hb
    · next heq => exact .inr ⟨heq.symm, Option.some.inj hb⟩
    · exact .inl (hsame.symm.trans hb)
  -- The three turns that let a ticket go announce it; no other turn announces anything.
  cases h with
  | land hphase =>
    rcases hreleased (by simp) ha with hold | ⟨rfl, rfl⟩
    · exact .inl hold
    · exact .inr ⟨_, hphase, rfl, .land _⟩
  | fail hphase =>
    rcases hreleased (by simp) ha with hold | ⟨rfl, rfl⟩
    · exact .inl hold
    · exact .inr ⟨_, hphase, rfl, .fail _⟩
  | quit hphase =>
    rcases hreleased (by simp) ha with hold | ⟨rfl, rfl⟩
    · exact .inl hold
    · exact .inr ⟨_, hphase, rfl, .quit⟩
  | _ => exact .inl ha

/-- What is announced after a step was announced before it, or its holder has just let the ticket
go. -/
theorem announced_step {a : Announcement} (h : Step w m w')
    (ha : w'.cache.announcement? t = some a) :
    w.cache.announcement? t = some a ∨
    ∃ (i : Nat) (call : Call) (d : Option Filed), w.calls[i]? = some call ∧
      call.phase = .computing t d ∧ (∀ call', w'.calls[i]? = some call' → call'.hasEnded) ∧
      call.Releases i t m a := by
  cases h with
  | idle => exact .inl ha
  | make => exact .inl ha
  | edit =>
    rw [Cache.announcement?_edit] at ha
    exact .inl ha
  | @turn m i call c p hcall hedit hturn =>
    -- The turn tells which ticket was let go, and its call is the one that held it.
    rcases announced_turn hturn ha with hold | ⟨d, hphase, hended, hreleases⟩
    · exact .inl hold
    · refine .inr ⟨i, call, d, hcall, hphase, fun call' hcall' => ?_, hreleases⟩
      rw [calls_update hcall, if_pos rfl] at hcall'
      exact Option.some.inj hcall' ▸ hended

/-- A call that waits after a step waited before it, or has just found the ticket in its slot. -/
theorem waiting_step (h : Step w m w') (hcall : w'.calls[i]? = some call)
    (hphase : call.phase = .waiting t) :
    w.calls[i]? = some call ∨
    (m = .resume i ∧ w'.cache = w.cache ∧ (∃ d, w.cache.content? call.key = some (.pending t d)) ∧
      ∃ call', w.calls[i]? = some call' ∧ call'.key = call.key ∧ call'.Looks w.cache) := by
  -- Only the turn that finds a pending slot makes the call wait, and it leaves the cache alone.
  cases h with
  | idle => exact .inl hcall
  | edit => exact .inl hcall
  | make =>
    rcases calls_make hcall with hold | ⟨_, rfl⟩
    · exact .inl hold
    · cases hphase
  | turn hcall' hedit hturn =>
    rw [calls_update hcall'] at hcall
    split at hcall
    · next heq =>
      subst heq
      obtain rfl := Option.some.inj hcall
      cases hturn with
      | rest => exact .inl hcall'
      | wait hlook hpending =>
        cases hphase
        exact .inr ⟨rfl, rfl, ⟨_, hpending⟩, _, hcall', rfl, hlook⟩
      | hear => cases hphase
      | _ => cases hphase
    · exact .inl hcall

/-- Tickets are never given back. -/
theorem nextTicket_step (h : Step w m w') : w.cache.nextTicket ≤ w'.cache.nextTicket := by
  cases h with
  | idle => exact Nat.le_refl _
  | make => exact Nat.le_refl _
  | edit => simp
  | @turn m i call c p hcall hedit hturn =>
    change w.cache.nextTicket ≤ c.nextTicket
    cases hturn <;> simp

/-! ## The invariant -/

/-- Tickets are issued in order, each to one call that computes under it until it is announced, and
a slot is pending only under a ticket that is still held for it. -/
structure Sound (w : Workbench) : Prop where
  pendingIssued : ∀ {k : Key} {t : Nat} {d : Option Filed},
    w.cache.content? k = some (.pending t d) → t < w.cache.nextTicket
  computingIssued : ∀ {i t : Nat} {call : Call} {d : Option Filed},
    w.calls[i]? = some call → call.phase = .computing t d → t < w.cache.nextTicket
  waitingIssued : ∀ {i t : Nat} {call : Call},
    w.calls[i]? = some call → call.phase = .waiting t → t < w.cache.nextTicket
  announcedIssued : ∀ {t : Nat} {a : Announcement},
    w.cache.announcement? t = some a → t < w.cache.nextTicket
  /-- Whoever computes under the ticket of a pending slot has the displaced record in hand. -/
  led : ∀ {k : Key} {t : Nat} {d : Option Filed}, w.cache.content? k = some (.pending t d) →
    ∃ (i : Nat) (call : Call),
      w.calls[i]? = some call ∧ call.key.slot = k.slot ∧ call.phase = .computing t d
  single : ∀ {i j t : Nat} {call call' : Call} {d d' : Option Filed},
    w.calls[i]? = some call → call.phase = .computing t d →
    w.calls[j]? = some call' → call'.phase = .computing t d' → i = j
  unheard : ∀ {i t : Nat} {call : Call} {d : Option Filed},
    w.calls[i]? = some call → call.phase = .computing t d → w.cache.announcement? t = none
  /-- A call that waits for a ticket waits for the record of its own slot. -/
  paired : ∀ {i j t : Nat} {call leader : Call} {d : Option Filed},
    w.calls[i]? = some call → call.phase = .waiting t →
    w.calls[j]? = some leader → leader.phase = .computing t d → leader.key.slot = call.key.slot
  /-- A record that is announced for a ticket was computed under it. -/
  announcedOwn : ∀ {t : Nat} {f : Filed},
    w.cache.announcement? t = some (.record f) → f.ticket? = some t

/-- The empty workbench is sound, as it holds no slot, no call and no announcement. -/
theorem sound_empty : Sound {} where
  pendingIssued := nofun
  computingIssued := nofun
  waitingIssued := nofun
  announcedIssued := nofun
  led := nofun
  single := nofun
  unheard := nofun
  paired := nofun
  announcedOwn := nofun

/-- What is announced stays announced. -/
theorem announcement?_step {a : Announcement} (hw : Sound w) (h : Step w m w')
    (ha : w.cache.announcement? t = some a) : w'.cache.announcement? t = some a := by
  cases h with
  | idle => exact ha
  | make => exact ha
  | edit => rwa [Cache.announcement?_edit]
  | @turn m i call c p hcall hedit hturn =>
    change c.announcement? t = some a
    -- The ticket that is let go is held until now, so nothing is announced of it yet.
    have hother {t' : Nat} {d : Option Filed} (hphase : call.phase = .computing t' d) : t ≠ t' := by
      rintro rfl
      rw [hw.unheard hcall hphase] at ha
      cases ha
    cases hturn with
    | land hphase => simpa [Cache.announcement?_announce, hother hphase] using ha
    | fail hphase => simpa [Cache.announcement?_announce, hother hphase] using ha
    | quit hphase => simpa [Cache.announcement?_announce, hother hphase] using ha
    | _ => exact ha

/-- A step keeps a workbench sound: each part follows from where what it speaks of comes from. -/
theorem sound_step (hw : Sound w) (h : Step w m w') : Sound w' where
  pendingIssued hp := by
    -- The ticket was pending before the step or has just been taken, and the counter is past both.
    have hnext := nextTicket_step h
    rcases pending_step h hp with hold | ⟨_, i, call, hcall, _, hphase⟩
    · exact Nat.lt_of_lt_of_le (hw.pendingIssued hold) hnext
    · rcases computing_step h hcall hphase with hold | ⟨_, rfl, hc, _⟩
      · exact Nat.lt_of_lt_of_le (hw.computingIssued hold hphase) hnext
      · rw [hc]
        exact Nat.lt_succ_self _
  computingIssued hcall hphase := by
    have hnext := nextTicket_step h
    rcases computing_step h hcall hphase with hold | ⟨_, rfl, hc, _⟩
    · exact Nat.lt_of_lt_of_le (hw.computingIssued hold hphase) hnext
    · rw [hc]
      exact Nat.lt_succ_self _
  waitingIssued hcall hphase := by
    have hnext := nextTicket_step h
    rcases waiting_step h hcall hphase with hold | ⟨_, _, ⟨d, hp⟩, _⟩
    · exact Nat.lt_of_lt_of_le (hw.waitingIssued hold hphase) hnext
    · exact Nat.lt_of_lt_of_le (hw.pendingIssued hp) hnext
  announcedIssued ha := by
    have hnext := nextTicket_step h
    rcases announced_step h ha with hold | ⟨i, call, d, hcall, hphase, _, _⟩
    · exact Nat.lt_of_lt_of_le (hw.announcedIssued hold) hnext
    · exact Nat.lt_of_lt_of_le (hw.computingIssued hcall hphase) hnext
  led hp := by
    -- The holder of an old ticket goes on with it, or the slot is no longer pending under it.
    rcases pending_step h hp with hold | ⟨_, hled⟩
    · obtain ⟨i, call, hcall, hk, hphase⟩ := hw.led hold
      rcases computing_stays h hcall hphase with hstays | ⟨_, hgone⟩
      · exact ⟨i, call, hstays, hk, hphase⟩
      · exact absurd (Cache.isPending_iff.2 ⟨_, hp⟩) (hgone _ hk.symm)
    · exact hled
  single hi hphase hj hphase' := by
    -- A new ticket is higher than all that are held; an old one was held by one call before.
    rcases computing_step h hi hphase with hold | ⟨hm, rfl, _⟩ <;>
      rcases computing_step h hj hphase' with hold' | ⟨hm', ht, _⟩
    · exact hw.single hold hphase hold' hphase'
    · exact absurd (hw.computingIssued hold hphase) (ht ▸ Nat.lt_irrefl _)
    · exact absurd (hw.computingIssued hold' hphase') (Nat.lt_irrefl _)
    · exact Move.resume.inj (hm.symm.trans hm')
  unheard := by
    intro i t call d hcall hphase
    -- Of a ticket that was held before nothing was announced; if the step announces it, its holder
    -- has ended.
    rcases computing_step h hcall hphase with hbefore | ⟨_, rfl, hc, _⟩
    · cases ha : w'.cache.announcement? t with
      | none => rfl
      | some a =>
        rcases announced_step h ha with hold | ⟨j, holder, d', hholder, hheld, hended, _⟩
        · rw [hw.unheard hbefore hphase] at hold
          cases hold
        · obtain rfl := hw.single hbefore hphase hholder hheld
          have hcall := hended call hcall
          simp [Call.hasEnded, hphase] at hcall
    -- A ticket that is taken in this step has not been issued before, so it has not been announced.
    · rw [hc, Cache.announcement?_issue]
      cases ha : w.cache.announcement? w.cache.nextTicket with
      | none => rfl
      | some a => exact absurd (hw.announcedIssued ha) (Nat.lt_irrefl _)
  paired := by
    intro i j t call leader d hcall hphase hleader hleads
    rcases computing_step h hleader hleads with hbefore | ⟨_, rfl, _⟩
    · rcases waiting_step h hcall hphase with hold | ⟨_, _, ⟨d', hp⟩, _⟩
      · exact hw.paired hold hphase hbefore hleads
      · -- The slot that the call has just looked at is held by the one call under the ticket.
        obtain ⟨j', holder, hholder, hslot, hholds⟩ := hw.led hp
        obtain rfl := hw.single hholder hholds hbefore hleads
        cases hholder.symm.trans hbefore
        exact hslot
    · -- Nobody waits yet for a ticket that is taken in this step.
      rcases waiting_step h hcall hphase with hold | ⟨_, _, ⟨d', hp⟩, _⟩
      · exact absurd (hw.waitingIssued hold hphase) (Nat.lt_irrefl _)
      · exact absurd (hw.pendingIssued hp) (Nat.lt_irrefl _)
  announcedOwn ha := by
    rename_i t f
    -- Only a compute that lands announces a record, and it is filed under the ticket of the
    -- compute.
    rcases announced_step h ha with hold | ⟨_, call, _, _, _, _, hreleases⟩
    · exact hw.announcedOwn hold
    · generalize hf : Announcement.record f = a at hreleases
      cases hreleases with
      | land r =>
        cases hf
        rfl
      | fail e => exact absurd hf.symm (call.failureAnnouncement_ne_record e f)
      | quit => cases hf

/-- A run from a sound workbench keeps it sound. -/
theorem sound_run (hw : Sound w) (moves : List Move) : Sound (w.run moves) := by
  induction moves generalizing w with
  | nil => exact hw
  | cons m moves ih => exact ih (sound_step hw (step_apply w m))

/-- What moves of a kind keep of a sound workbench is kept along a run of such moves. -/
theorem kept_run_of {P : Workbench → Prop} {Q : Move → Prop}
    (hmove : ∀ {w : Workbench} {m : Move}, Sound w → Q m → P w → P (w.apply m)) (hw : Sound w)
    {moves : List Move} (hmoves : ∀ m ∈ moves, Q m) (h : P w) : P (w.run moves) := by
  induction moves generalizing w with
  | nil => exact h
  | cons m moves ih =>
    rw [List.forall_mem_cons] at hmoves
    exact ih (sound_step hw (step_apply w m)) hmoves.2 (hmove hw hmoves.1 h)

/-- What every move keeps of a sound workbench is kept along any run. -/
theorem kept_run {P : Workbench → Prop}
    (hmove : ∀ {w : Workbench}, Sound w → P w → ∀ m, P (w.apply m)) (hw : Sound w) (h : P w)
    (moves : List Move) : P (w.run moves) :=
  kept_run_of (Q := fun _ => True) (fun hw _ h => hmove hw h _) hw (fun _ _ => trivial) h

/-- Behind every run from an empty cache a workbench is sound. -/
theorem sound_after (moves : List Move) : Sound (after moves) := sound_run sound_empty moves

/-- What is announced stays announced along a run. -/
theorem announcement?_run {a : Announcement} (hw : Sound w)
    (ha : w.cache.announcement? t = some a) (moves : List Move) :
    (w.run moves).cache.announcement? t = some a :=
  kept_run (P := fun w => w.cache.announcement? t = some a)
    (fun hw ha m => announcement?_step hw (step_apply _ m) ha) hw ha moves

/-- Tickets are never given back along a run. -/
theorem nextTicket_le_run (w : Workbench) (moves : List Move) :
    w.cache.nextTicket ≤ (w.run moves).cache.nextTicket := by
  induction moves generalizing w with
  | nil => exact Nat.le_refl _
  | cons m moves ih => exact Nat.le_trans (nextTicket_step (step_apply w m)) (ih _)

/-! ## How computes end -/

/-- A call that has ended stays as it is. -/
theorem ended_step (h : Step w m w') (hcall : w.calls[i]? = some call) (hended : call.hasEnded) :
    w'.calls[i]? = some call := by
  cases h with
  | idle => exact hcall
  | edit => exact hcall
  | make =>
    rw [List.getElem?_append_left (List.getElem?_eq_some_iff.1 hcall).1]
    exact hcall
  | @turn m j call' c p hcall' hedit hturn =>
    rw [calls_update hcall']
    split
    · next heq =>
      subst heq
      obtain rfl := Option.some.inj (hcall'.symm.trans hcall)
      -- A call that has ended has no use for a look, and no turn takes it on from where it is.
      have hlooks : ¬ call'.Looks w.cache := by
        rintro (hp | ⟨t, a, hp, _⟩) <;> simp [Call.hasEnded, hp] at hended
      cases hturn with
      | rest => rfl
      | hit hlook => exact absurd hlook hlooks
      | miss hlook => exact absurd hlook hlooks
      | wait hlook => exact absurd hlook hlooks
      | lead hlook => exact absurd hlook hlooks
      | hear hp => simp [Call.hasEnded, hp] at hended
      | land hp => simp [Call.hasEnded, hp] at hended
      | fail hp => simp [Call.hasEnded, hp] at hended
      | quit hp => simp [Call.hasEnded, hp] at hended
      | leave hp => rcases hp with hp | ⟨t, hp⟩ <;> simp [Call.hasEnded, hp] at hended
    · exact hcall

/-- A call that has ended stays as it is along a run. -/
theorem ended_run (hcall : w.calls[i]? = some call) (hended : call.hasEnded) (moves : List Move) :
    (w.run moves).calls[i]? = some call := by
  induction moves generalizing w with
  | nil => exact hcall
  | cons m moves ih => exact ih (ended_step (step_apply w m) hcall hended)

/-- A slot stays pending under its ticket until it is edited or the ticket is announced. -/
theorem pending_stays (h : Step w m w') (htouch : m.touches k = false)
    (hp : w.cache.content? k = some (.pending t d)) :
    w'.cache.content? k = some (.pending t d) ∨ (w'.cache.announcement? t).isSome := by
  -- Whoever lets go a ticket that this slot is pending under lets go of this very ticket.
  have hheld {t' : Nat} (hpending : w.cache.isPending k t') : t' = t := by
    obtain ⟨d', hd'⟩ := Cache.isPending_iff.1 hpending
    cases hp.symm.trans hd'
    rfl
  cases slotStep_of_step h k with
  | same hsame => exact .inl (hsame.trans hp)
  | edited htouch' =>
    rw [htouch] at htouch'
    cases htouch'
  -- A pending slot is not claimed.
  | claimed hcall hslot hphase hfree =>
    rw [hp, eq_comm] at hfree
    simp at hfree
  | landed hcall hphase hpending ha =>
    rw [hheld hpending] at ha
    exact .inr (Option.isSome_of_eq_some ha)
  | surrendered hcall hphase hpending ha =>
    rw [hheld hpending] at ha
    exact .inr (Option.isSome_of_eq_some ha)

/-- The same over a run without edits of the slot. -/
theorem pending_run (hw : Sound w) {moves : List Move} (htouch : ∀ x ∈ moves, x.touches k = false)
    (hp : w.cache.content? k = some (.pending t d)) :
    (w.run moves).cache.content? k = some (.pending t d) ∨
      ((w.run moves).cache.announcement? t).isSome := by
  refine kept_run_of
    (P := fun w => w.cache.content? k = some (.pending t d) ∨ (w.cache.announcement? t).isSome)
    ?_ hw htouch (.inl hp)
  rintro w m hw hm (hp | ha)
  · exact pending_stays (step_apply w m) hm hp
  · -- What is announced stays announced, whatever becomes of the slot.
    obtain ⟨a, ha⟩ := Option.isSome_iff_exists.1 ha
    exact .inr (Option.isSome_of_eq_some (announcement?_step hw (step_apply w m) ha))

end Workbench

/-! ## A key and records to show runs with -/

namespace Sample

/-- The browser's slot of a component. -/
def key : Key := ⟨⟨"/A.svelte"⟩, .dom⟩

/-- A record of that component with some code. -/
def record (code : String) : Record where
  file := ⟨"/A.svelte"⟩
  target := .dom
  digest := ⟨[]⟩
  js := ⟨code, none⟩
  css := none
  dependencies := [⟨"/theme.css"⟩]
  warnings := []

end Sample

end HotComponents
