import HotComponents.Proofs.Cache.Sound

/-!
# One compute for many calls

Where a slot is vacant and no call is under way, the first call that asks for a record of some
source computes. Whoever asks for one of the same source then, or for whatever there will be, waits
for that compute and is given its record, and none of them computes again.

* `shares_resume`: what a call comes to while it shares a compute;
* `shared_make`, `shared_resume`, `shared_land`: what the moves of such calls preserve;
* `shared_of_vacant`: the call with which it begins.
-/

namespace HotComponents

/-- The call is for a slot, and takes whatever is in it or what is made from a given source. -/
def Call.Shares (call : Call) (k : Key) (digest : SourceDigest) : Prop :=
  call.key.slot = k.slot ∧ (call.intent = .settle ∨ call.intent = .obtain (.matching digest))

/-- A call that shares a compute takes its record. -/
theorem Call.Shares.accepts {call : Call} {k : Key} {r : Record} (h : call.Shares k r.digest) :
    call.reuse.accepts r := by
  rcases h.2 with hintent | hintent
  · simp [reuse, hintent, Reuse.accepts]
  · simp [reuse, hintent, Reuse.accepts]

namespace Workbench

variable {w : Workbench} {n t : Nat} {k key : Key} {f : Filed} {call : Call} {intent : Intent}

/-- The calls that are under way share one compute for a slot: it is under way, under a ticket, or a
record has come of it, and the others wait for the ticket or have not looked yet. -/
structure Shared (k : Key) (t : Nat) (f : Filed) (w : Workbench) : Prop where
  slot : (w.cache.content? k = some (.pending t none) ∧ w.cache.announcement? t = none) ∨
    (w.cache.content? k = some (.ready f) ∧ w.cache.announcement? t = some (.record f))
  shares : ∀ {n : Nat} {call : Call}, w.calls[n]? = some call → call.hasEnded = false →
    call.Shares k f.record.digest
  waits : ∀ {n u : Nat} {call : Call}, w.calls[n]? = some call → call.phase = .waiting u → u = t
  leads : ∀ {n u : Nat} {call : Call} {d : Option Filed}, w.calls[n]? = some call →
    call.phase = .computing u d → u = t ∧ w.cache.content? k = some (.pending t none)

/-- A call that is resumed waits while the compute is under way, and is then given its record. -/
theorem shares_resume (h : Shared k t f w) (hcall : w.calls[n]? = some call)
    (hopen : call.phase = .arriving ∨ ∃ u, call.phase = .waiting u) :
    ∃ p, w.apply (.resume n) = w.update n w.cache (call.atPhase p) ∧
      (w.cache.content? k = some (.pending t none) ∧ p = .waiting t ∨
        w.cache.content? k = some (.ready f) ∧ p = .returned (.record f)) := by
  have hshares := h.shares hcall (Call.hasEnded_of_open hopen)
  have hcontent : w.cache.content? call.key = w.cache.content? k :=
    Cache.content?_congr hshares.1
  obtain ⟨p, hturn, hp⟩ := call.turn_resume w.cache n
  have happly : w.apply (.resume n) = w.update n (call.resume w.cache).1 (call.atPhase p) := by
    simp only [apply, hcall, hp]
  rw [happly]
  generalize (call.resume w.cache).1 = c at hturn
  -- Case by case, a turn fits only one of the two states of the slot: it waits while the slot is
  -- pending and takes the record once it is there.
  cases hturn with
  | rest hidle =>
    refine ⟨_, rfl, .inl ?_⟩
    rcases hopen with harrives | ⟨u, hwaits⟩
    · have hruns := hidle rfl
      rw [Call.isRunnable, harrives] at hruns
      cases hruns
    · obtain rfl := h.waits hcall hwaits
      have hunheard : w.cache.announcement? u = none := by
        simpa [Call.isRunnable, hwaits] using hidle rfl
      rcases h.slot with ⟨hpending, _⟩ | ⟨_, hannounced⟩
      · exact ⟨hpending, hwaits⟩
      · rw [hunheard] at hannounced
        cases hannounced
  | hit hlook hready =>
    refine ⟨_, rfl, .inr ?_⟩
    rw [hcontent] at hready
    rcases h.slot with ⟨hpending, _⟩ | ⟨hready', _⟩
    · cases hpending.symm.trans hready
    · cases hready'.symm.trans hready
      exact ⟨hready, rfl⟩
  -- The slot is not vacant in either state.
  | miss hlook hvacant =>
    rw [hcontent] at hvacant
    rcases h.slot with ⟨hfull, _⟩ | ⟨hfull, _⟩ <;> cases hvacant.symm.trans hfull
  | wait hlook hpending =>
    refine ⟨_, rfl, .inl ?_⟩
    rw [hcontent] at hpending
    rcases h.slot with ⟨hpending', _⟩ | ⟨hready, _⟩
    · cases hpending'.symm.trans hpending
      exact ⟨hpending, rfl⟩
    · cases hready.symm.trans hpending
  | @lead d hlook hfree hintent hrefuses =>
    -- The slot is pending or holds a record that the call takes.
    exfalso
    rw [hcontent] at hfree
    rcases h.slot with ⟨hpending, _⟩ | ⟨hready, _⟩
    · rw [hpending] at hfree
      cases d <;> cases hfree
    · rw [hready] at hfree
      cases d with
      | none => cases hfree
      | some g =>
        cases hfree
        exact hrefuses _ rfl hshares.accepts
  | @hear u a answer hwaits ha hheard =>
    refine ⟨_, rfl, .inr ?_⟩
    obtain rfl := h.waits hcall hwaits
    rcases h.slot with ⟨_, hunheard⟩ | ⟨hready, hannounced⟩
    · cases hunheard.symm.trans ha
    · cases hannounced.symm.trans ha
      have hanswer : call.heard? (.record f) = some (.record f) := by
        rcases hshares.2 with hintent | hintent
        · simp [Call.heard?, hintent]
        · simp [Call.heard?, hintent, Reuse.accepts]
      cases hanswer.symm.trans hheard
      exact ⟨hready, rfl⟩

/-- What it preserves that a call is made which shares the compute. -/
theorem shared_make (h : Shared k t f w) (hslot : key.slot = k.slot)
    (hintent : intent = .settle ∨ intent = .obtain (.matching f.record.digest)) :
    Shared k t f (w.apply (.make key intent)) where
  slot := h.slot
  -- The new call shares the compute and has not begun, so it neither waits nor leads.
  shares {n call} hcall hgoes := by
    rcases calls_make hcall with hold | ⟨_, rfl⟩
    · exact h.shares hold hgoes
    · exact ⟨hslot, hintent⟩
  waits {n u call} hcall hphase := by
    rcases calls_make hcall with hold | ⟨_, rfl⟩
    · exact h.waits hold hphase
    · cases hphase
  leads {n u call d} hcall hphase := by
    rcases calls_make hcall with hold | ⟨_, rfl⟩
    · exact h.leads hold hphase
    · cases hphase

/-- What it preserves that such a call is resumed. -/
theorem shared_resume (h : Shared k t f w) (hcall : w.calls[n]? = some call)
    (hopen : call.phase = .arriving ∨ ∃ u, call.phase = .waiting u) :
    Shared k t f (w.apply (.resume n)) := by
  obtain ⟨p, happly, hp⟩ := shares_resume h hcall hopen
  have hshares := h.shares hcall (Call.hasEnded_of_open hopen)
  -- No call but the one that is resumed moves.
  have hcases {j : Nat} {call' : Call}
      (hcall' : (w.update n w.cache (call.atPhase p)).calls[j]? = some call') :
      w.calls[j]? = some call' ∨ call' = call.atPhase p := by
    rw [calls_update hcall] at hcall'
    split at hcall'
    · exact .inr (Option.some.inj hcall').symm
    · exact .inl hcall'
  rw [happly]
  constructor
  · exact h.slot
  · intro j call' hcall' hgoes'
    rcases hcases hcall' with hold | rfl
    · exact h.shares hold hgoes'
    · exact hshares
  · intro j u call' hcall' hphase
    rcases hcases hcall' with hold | rfl
    · exact h.waits hold hphase
    · rcases hp with ⟨_, rfl⟩ | ⟨_, rfl⟩ <;> cases hphase
      rfl
  · intro j u call' d hcall' hphase
    rcases hcases hcall' with hold | rfl
    · exact h.leads hold hphase
    · rcases hp with ⟨_, rfl⟩ | ⟨_, rfl⟩ <;> cases hphase

/-- What it preserves that the compute ends in the record. -/
theorem shared_land (hw : Sound w) (h : Shared k t f w) (hf : f.ticket? = some t)
    (hcall : w.calls[n]? = some call) {d : Option Filed} (hphase : call.phase = .computing t d) :
    Shared k t f (w.apply (.finish n (.ok f.record))) ∧
      (w.apply (.finish n (.ok f.record))).cache.content? k = some (.ready f) := by
  obtain ⟨r, _⟩ := f
  cases hf
  have hgoes : call.hasEnded = false := by simp [Call.hasEnded, hphase]
  have hslot := (h.shares hcall hgoes).1
  have hpending := (h.leads hcall hphase).2
  have hown : w.cache.isPending call.key t :=
    Cache.isPending_iff.2 ⟨none, (Cache.content?_congr hslot).trans hpending⟩
  have happly : w.apply (.finish n (.ok r)) =
      w.update n ((w.cache.redeem call.key t r).announce t (.record ⟨r, some t⟩))
        (call.atPhase (.returned (call.computedAnswer d ⟨r, some t⟩))) := by
    simp only [apply, hcall, Call.finish, hphase]
  have hready : (w.apply (.finish n (.ok r))).cache.content? k = some (.ready ⟨r, some t⟩) := by
    rw [happly]
    change ((w.cache.redeem call.key t r).announce t _).content? k = _
    rw [Cache.content?_announce, Cache.content?_redeem, if_pos ⟨hown, hslot.symm⟩]
  -- The leader has ended, and the others are as they were.
  have hcases {j : Nat} {call' : Call}
      (hcall' : (w.apply (.finish n (.ok r))).calls[j]? = some call') :
      (j ≠ n ∧ w.calls[j]? = some call') ∨ call'.hasEnded := by
    rw [happly, calls_update hcall] at hcall'
    split at hcall'
    · cases hcall'
      exact .inr rfl
    · next hne => exact .inl ⟨Ne.symm hne, hcall'⟩
  -- There is no second leader, as a ticket has one holder.
  have hnone {j u : Nat} {call' : Call} {d' : Option Filed} (hne : j ≠ n)
      (hold : w.calls[j]? = some call') (hphase' : call'.phase = .computing u d') : False := by
    obtain ⟨rfl, _⟩ := h.leads hold hphase'
    exact hne (hw.single hold hphase' hcall hphase)
  refine ⟨⟨.inr ⟨hready, ?_⟩, ?_, ?_, ?_⟩, hready⟩
  · rw [happly]
    exact (Cache.announcement?_announce _ _ _ _).trans (if_pos rfl)
  · intro j call' hcall' hgoes'
    rcases hcases hcall' with ⟨_, hold⟩ | hended
    · exact h.shares hold hgoes'
    · rw [hended] at hgoes'
      cases hgoes'
  · intro j u call' hcall' hphase'
    rcases hcases hcall' with ⟨_, hold⟩ | hended
    · exact h.waits hold hphase'
    · simp [Call.hasEnded, hphase'] at hended
  · intro j u call' d' hcall' hphase'
    rcases hcases hcall' with ⟨hne, hold⟩ | hended
    · exact (hnone hne hold hphase').elim
    · simp [Call.hasEnded, hphase'] at hended

/-- Where the slot is vacant and no call is under way, a call that asks for a record of some source
takes the next ticket, and the compute is shared from then on. -/
theorem shared_of_vacant (hw : Sound w) (hvacant : w.cache.content? k = none)
    (hidle : ∀ (n : Nat) (call : Call), w.calls[n]? = some call → call.hasEnded)
    (hslot : key.slot = k.slot) (f : Filed) :
    let led := (w.apply (.make key (.obtain (.matching f.record.digest)))).apply
      (.resume w.calls.length)
    led.calls[w.calls.length]? = some ⟨key, .obtain (.matching f.record.digest),
      .computing w.cache.nextTicket none⟩ ∧
    Shared k w.cache.nextTicket f led := by
  intro led
  have hcontent : w.cache.content? key = none := (Cache.content?_congr hslot).trans hvacant
  have hled : led = ⟨w.cache.issue key none, w.calls ++ [⟨key,
      .obtain (.matching f.record.digest), .computing w.cache.nextTicket none⟩]⟩ := by
    simp [led, apply, Call.resume, Call.look, Cache.claim, hcontent, update, Call.atPhase]
  have hpending : led.cache.content? k = some (.pending w.cache.nextTicket none) := by
    rw [hled]
    exact (w.cache.content?_issue key k none).trans (if_pos hslot.symm)
  -- The new call is the only one that is under way.
  have hcases {j : Nat} {call : Call} (hcall : led.calls[j]? = some call)
      (hgoes : call.hasEnded = false) :
      call = ⟨key, .obtain (.matching f.record.digest), .computing w.cache.nextTicket none⟩ := by
    rw [hled] at hcall
    rcases Nat.lt_or_ge j w.calls.length with hlt | hge
    · rw [List.getElem?_append_left hlt] at hcall
      rw [hidle j call hcall] at hgoes
      cases hgoes
    · rw [List.getElem?_append_right hge, List.getElem?_singleton] at hcall
      split at hcall
      · exact (Option.some.inj hcall).symm
      · cases hcall
  refine ⟨by rw [hled]; simp, .inl ⟨hpending, ?_⟩, ?_, ?_, ?_⟩
  · rw [hled]
    -- A ticket that has not been issued cannot have been announced.
    change w.cache.announcement? w.cache.nextTicket = none
    cases ha : w.cache.announcement? w.cache.nextTicket with
    | none => rfl
    | some a => exact absurd (hw.announcedIssued ha) (Nat.lt_irrefl _)
  · intro j call hcall hgoes
    rw [hcases hcall hgoes]
    exact ⟨hslot, .inr rfl⟩
  · intro j u call hcall hphase
    rw [hcases hcall (by simp [Call.hasEnded, hphase])] at hphase
    cases hphase
  · intro j u call d hcall hphase
    rw [hcases hcall (by simp [Call.hasEnded, hphase])] at hphase
    cases hphase
    exact ⟨rfl, hpending⟩

end Workbench

end HotComponents
