import HotComponents.Cache.Workbench

/-!
# What one move does

A move on a workbench does one of a few things. Either it makes a call, or it changes the cache
directly (an *edit*), or it is a *turn* of one call, or it does not fit and does nothing. A turn
leaves the cache alone unless the call takes a ticket, or holds one and gives it back.

`Turn` and `Step` list these things with all that is known when they happen. Invariants of runs are
proved by cases on them and never look into the calls again.

* `step_apply`: every move is one of the steps that are listed;
* `content?_edit`: an edit changes exactly the slots it touches.
-/

namespace HotComponents

/-! ## Edits -/

namespace Move

/-- The move changes the cache directly. -/
def isEdit : Move → Bool
  | replace _ | invalidate _ | invalidateKey _ | clear => true
  | _ => false

/-- The move fills or empties the slot of a key, whatever that holds. -/
def touches : Move → Key → Bool
  | replace r, k => r.key.same k
  | invalidate file, k => file.same k.file
  | invalidateKey l, k => l.same k
  | clear, _ => true
  | _, _ => false

/-- What a slot holds after an edit that touches it. -/
def put? : Move → Option Content
  | replace r => some (.ready ⟨r, none⟩)
  | _ => none

/-- Only an edit touches a slot of its own accord. -/
theorem isEdit_of_touches {m : Move} {k : Key} (h : m.touches k) : m.isEdit := by
  cases m <;> simp_all [touches, isEdit]

end Move

namespace Cache

/-- The cache after an edit; other moves do not change it by themselves. -/
def edit (c : Cache) : Move → Cache
  | .replace r => c.replace r
  | .invalidate file => c.invalidate file
  | .invalidateKey k => c.invalidateKey k
  | .clear => c.clear
  | _ => c

theorem content?_invalidateKey (c : Cache) (k l : Key) :
    (c.invalidateKey k).content? l = if l.slot = k.slot then none else c.content? l :=
  content?_vacate c k l

/-- Invalidating a file empties the slots of both its targets. -/
theorem content?_invalidate (c : Cache) (file : FilePath) (l : Key) :
    (c.invalidate file).content? l =
      if l.file.components = file.components then none else c.content? l := by
  unfold invalidate
  rw [content?_invalidateKey, content?_invalidateKey]
  -- The two slots of the file are emptied one after the other.
  cases hl : l.target <;> by_cases hf : l.file.components = file.components <;>
    simp [Key.slot, hl, hf]

/-- An edit puts one content into all the slots it touches and leaves the others alone. -/
theorem content?_edit (c : Cache) (m : Move) (k : Key) :
    (c.edit m).content? k = if m.touches k then m.put? else c.content? k := by
  cases m with
  | replace r =>
    have hput : (c.edit (.replace r)).content? k =
        if k.slot = r.key.slot then some (.ready ⟨r, none⟩) else c.content? k :=
      content?_put c r.key k _
    have htouch : (Move.replace r).touches k ↔ k.slot = r.key.slot :=
      Key.same_iff.trans eq_comm
    simp only [hput, htouch, Move.put?]
  | invalidate file =>
    have htouch : (Move.invalidate file).touches k ↔ k.file.components = file.components :=
      FilePath.same_iff.trans eq_comm
    simp only [edit, content?_invalidate, htouch, Move.put?]
  | invalidateKey l =>
    have htouch : (Move.invalidateKey l).touches k ↔ k.slot = l.slot :=
      Key.same_iff.trans eq_comm
    simp only [edit, content?_invalidateKey, htouch, Move.put?]
  | clear => rfl
  | _ => simp [edit, Move.touches]

@[simp] theorem nextTicket_edit (c : Cache) (m : Move) : (c.edit m).nextTicket = c.nextTicket := by
  cases m <;> rfl

@[simp] theorem announcement?_edit (c : Cache) (m : Move) (ticket : Nat) :
    (c.edit m).announcement? ticket = c.announcement? ticket := by
  cases m <;> rfl

/-! ## Tickets -/

/-- The latest announcement of a ticket is the one that is heard. -/
theorem announcement?_announce (c : Cache) (t u : Nat) (a : Announcement) :
    (c.announce t a).announcement? u = if u = t then some a else c.announcement? u := by
  unfold announcement? announce
  rw [List.find?_cons]
  by_cases h : u = t
  · simp [h]
  · simp [h, Ne.symm h]

@[simp] theorem content?_announce (c : Cache) (t : Nat) (a : Announcement) (k : Key) :
    (c.announce t a).content? k = c.content? k := rfl

@[simp] theorem nextTicket_announce (c : Cache) (t : Nat) (a : Announcement) :
    (c.announce t a).nextTicket = c.nextTicket := rfl

@[simp] theorem nextTicket_issue (c : Cache) (k : Key) (displaced : Option Filed) :
    (c.issue k displaced).nextTicket = c.nextTicket + 1 := rfl

@[simp] theorem announcement?_issue (c : Cache) (k : Key) (displaced : Option Filed) (t : Nat) :
    (c.issue k displaced).announcement? t = c.announcement? t := rfl

@[simp] theorem nextTicket_redeem (c : Cache) (k : Key) (t : Nat) (r : Record) :
    (c.redeem k t r).nextTicket = c.nextTicket := by
  unfold redeem
  split <;> rfl

@[simp] theorem announcement?_redeem (c : Cache) (k : Key) (t u : Nat) (r : Record) :
    (c.redeem k t r).announcement? u = c.announcement? u := by
  unfold redeem
  split <;> rfl

@[simp] theorem nextTicket_surrender (c : Cache) (k : Key) (t : Nat) (d : Option Filed) :
    (c.surrender k t d).nextTicket = c.nextTicket := by
  unfold surrender
  split
  · cases d <;> rfl
  · rfl

@[simp] theorem announcement?_surrender (c : Cache) (k : Key) (t u : Nat) (d : Option Filed) :
    (c.surrender k t d).announcement? u = c.announcement? u := by
  unfold surrender
  split
  · cases d <;> rfl
  · rfl

end Cache

/-! ## Turns of a call -/

/-- Unless it asks for a new record, a call takes an error, and a record that it accepts. -/
theorem Call.heard?_eq_some_iff {call : Call} {a : Announcement} {answer : Answer Filed} :
    call.heard? a = some answer ↔ call.intent ≠ .recompute ∧
      ((∃ f, a = .record f ∧ call.reuse.accepts f.record ∧ .record f = answer) ∨
        ∃ e, a = .failure e ∧ .failure e = answer) := by
  obtain ⟨key, intent, phase⟩ := call
  cases intent with
  | recompute => simp [heard?]
  | settle => cases a <;> simp [heard?, reuse, Reuse.accepts]
  | obtain reuse => cases a <;> simp [heard?, Call.reuse]

/-- The call looks at its slot when it is resumed: it has not yet, or what it waited for has come to
nothing that it takes. -/
def Call.Looks (call : Call) (c : Cache) : Prop :=
  call.phase = .arriving ∨
    ∃ t a, call.phase = .waiting t ∧ c.announcement? t = some a ∧ call.heard? a = none

/-- Such a call has not begun to compute. -/
theorem Call.Looks.isOpen {call : Call} {c : Cache} (h : call.Looks c) :
    call.phase = .arriving ∨ ∃ t, call.phase = .waiting t :=
  h.imp_right fun ⟨t, _, hphase, _⟩ => ⟨t, hphase⟩

/-- A call that has not come to a compute has not ended. -/
theorem Call.hasEnded_of_open {call : Call}
    (hopen : call.phase = .arriving ∨ ∃ t, call.phase = .waiting t) : call.hasEnded = false := by
  rcases hopen with harrives | ⟨t, hwaits⟩
  · simp [hasEnded, harrives]
  · simp [hasEnded, hwaits]

theorem Call.hasEnded_of_computing {call : Call} {t : Nat} {d : Option Filed}
    (hphase : call.phase = .computing t d) : call.hasEnded = false := by
  simp [hasEnded, hphase]

/-- A call that computes does not look at its slot again. -/
theorem Call.not_looks_of_computing {call : Call} {t : Nat} {d : Option Filed}
    (hphase : call.phase = .computing t d) (c : Cache) : ¬ call.Looks c := by
  rintro (harrives | ⟨u, a, hwaits, _⟩)
  · rw [hphase] at harrives
    cases harrives
  · rw [hphase] at hwaits
    cases hwaits

/-- What a move can make of call number `i` and of the cache: the cache behind it and the phase in
which it leaves the call. -/
inductive Turn (c : Cache) (call : Call) (i : Nat) : Move → Cache → Phase → Prop where
  /-- The move does not fit, or the call still waits. -/
  | rest {m : Move} (hidle : m = .resume i → call.isRunnable c = false) :
      Turn c call i m c call.phase
  /-- It takes the record that it finds. -/
  | hit {f : Filed} (hlook : call.Looks c) (hready : c.content? call.key = some (.ready f))
      (haccepts : call.reuse.accepts f.record) :
      Turn c call i (.resume i) c (.returned (.record f))
  /-- It finds nothing and does not compute. -/
  | miss (hlook : call.Looks c) (hvacant : c.content? call.key = none)
      (hintent : call.intent = .settle) :
      Turn c call i (.resume i) c (.returned .absent)
  /-- It finds someone else's ticket. -/
  | wait {t : Nat} {d : Option Filed} (hlook : call.Looks c)
      (hpending : c.content? call.key = some (.pending t d)) :
      Turn c call i (.resume i) c (.waiting t)
  /-- It takes a ticket of its own and begins to compute, in place of a record that it does not
  take. -/
  | lead {d : Option Filed} (hlook : call.Looks c)
      (hfree : c.content? call.key = d.map .ready) (hintent : call.intent ≠ .settle)
      (hrefuses : ∀ f, d = some f → ¬ call.reuse.accepts f.record) :
      Turn c call i (.resume i) (c.issue call.key d) (.computing c.nextTicket d)
  /-- It takes what is announced for the ticket it waited for. -/
  | hear {t : Nat} {a : Announcement} {answer : Answer Filed} (hphase : call.phase = .waiting t)
      (ha : c.announcement? t = some a) (hheard : call.heard? a = some answer) :
      Turn c call i (.resume i) c (.returned answer)
  /-- Its compute succeeds. -/
  | land {t : Nat} {d : Option Filed} {r : Record} (hphase : call.phase = .computing t d) :
      Turn c call i (.finish i (.ok r))
        ((c.redeem call.key t r).announce t (.record ⟨r, some t⟩))
        (.returned (call.computedAnswer d ⟨r, some t⟩))
  /-- Its compute fails. -/
  | fail {t : Nat} {d : Option Filed} {e : BuildError} (hphase : call.phase = .computing t d) :
      Turn c call i (.finish i (.error e))
        ((c.surrender call.key t d).announce t (call.failureAnnouncement e))
        (.returned (.failure e))
  /-- It is given up while it computes. -/
  | quit {t : Nat} {d : Option Filed} (hphase : call.phase = .computing t d) :
      Turn c call i (.cancel i) ((c.surrender call.key t d).announce t .abandoned) .cancelled
  /-- It is given up before it computes. -/
  | leave (hopen : call.phase = .arriving ∨ ∃ t, call.phase = .waiting t) :
      Turn c call i (.cancel i) c .cancelled

/-- What is announced of a ticket by a move with which the call that computes under it, call number
`i`, lets it go. -/
inductive Call.Releases (call : Call) (i t : Nat) : Move → Announcement → Prop where
  | land (r : Record) : call.Releases i t (.finish i (.ok r)) (.record ⟨r, some t⟩)
  | fail (e : BuildError) : call.Releases i t (.finish i (.error e)) (call.failureAnnouncement e)
  | quit : call.Releases i t (.cancel i) .abandoned

namespace Call

/-- A compute that failed is never announced as a record. -/
theorem failureAnnouncement_ne_record (call : Call) (e : BuildError) (f : Filed) :
    call.failureAnnouncement e ≠ .record f := by
  unfold failureAnnouncement
  split <;> nofun

/-- A call that looks at its slot takes a turn, and the phase behind it is the turn's. -/
theorem turn_look {call : Call} {c : Cache} (hlook : call.Looks c) (i : Nat) :
    ∃ p, Turn c call i (.resume i) (call.look c).1 p ∧ (call.look c).2.1 = call.atPhase p := by
  unfold look
  split
  -- A call that only waits for what is there takes whatever record it finds.
  · next hsettle =>
    have haccepts (r : Record) : call.reuse.accepts r := by rw [reuse, hsettle]; rfl
    split
    · next f hready => exact ⟨_, .hit hlook hready (haccepts f.record), rfl⟩
    · next hpending => exact ⟨_, .wait hlook hpending, rfl⟩
    · next hvacant => exact ⟨_, .miss hlook hvacant hsettle, rfl⟩
  -- Any other call claims the slot. What it finds there is one of three contents, and a record is a
  -- hit only if the call takes it.
  · next hintent =>
    cases hcontent : c.content? call.key with
    | none =>
      simp only [Cache.claim, hcontent]
      exact ⟨_, .lead (d := none) hlook hcontent hintent nofun, rfl⟩
    | some content =>
      cases content with
      | pending t d =>
        simp only [Cache.claim, hcontent]
        exact ⟨_, .wait hlook hcontent, rfl⟩
      | ready f =>
        by_cases haccepts : call.reuse.accepts f.record
        · simp only [Cache.claim, hcontent, haccepts, if_true]
          exact ⟨_, .hit hlook hcontent haccepts, rfl⟩
        · simp only [Cache.claim, hcontent, haccepts]
          refine ⟨_, .lead (d := some f) hlook hcontent hintent ?_, rfl⟩
          rintro g ⟨⟩
          exact haccepts

/-- A call that is resumed takes a turn. -/
theorem turn_resume (call : Call) (c : Cache) (i : Nat) :
    ∃ p, Turn c call i (.resume i) (call.resume c).1 p ∧ (call.resume c).2.1 = call.atPhase p := by
  unfold resume
  split
  · next hphase => exact turn_look (.inl hphase) i
  · next t hphase =>
    split
    -- Nothing is announced yet, so the call could not run and the turn is a rest.
    · next hunheard =>
      refine ⟨_, .rest fun _ => ?_, rfl⟩
      simp only [isRunnable, hphase, hunheard, Option.isSome_none]
    · next a ha =>
      split
      · -- What is announced is an answer, or the call looks again.
        next answer hheard => exact ⟨_, .hear hphase ha hheard, rfl⟩
      · next hheard => exact turn_look (.inr ⟨t, a, hphase, ha, hheard⟩) i
  -- The call computes or has ended, and resuming it does nothing.
  · next harriving hwaiting =>
    refine ⟨_, .rest fun _ => ?_, rfl⟩
    unfold isRunnable
    split
    · next hphase => exact absurd hphase harriving
    · next t hphase => exact absurd hphase (hwaiting t)
    · rfl

/-- A call whose compute is to end takes a turn, also if it does not compute. -/
theorem turn_finish (call : Call) (c : Cache) (i : Nat) (result : Except BuildError Record) :
    ∃ p, Turn c call i (.finish i result) (call.finish c result).1 p ∧
      (call.finish c result).2.1 = call.atPhase p := by
  unfold finish
  split
  · next t d hphase =>
    cases result with
    | ok r => exact ⟨_, .land hphase, rfl⟩
    | error e => exact ⟨_, .fail hphase, rfl⟩
  · exact ⟨_, .rest nofun, rfl⟩

/-- A call that is given up takes a turn. -/
theorem turn_cancel (call : Call) (c : Cache) (i : Nat) :
    ∃ p, Turn c call i (.cancel i) (call.cancel c).1 p ∧ (call.cancel c).2 = call.atPhase p := by
  unfold cancel
  split
  · -- A call that computes lets its ticket go.
    next t d hphase => exact ⟨_, .quit hphase, rfl⟩
  · exact ⟨_, .rest nofun, rfl⟩
  -- Any other call that is still open leaves the cache alone.
  · next hcomputing hreturned =>
    cases hphase : call.phase with
    | arriving => exact ⟨_, .leave (.inl hphase), rfl⟩
    | waiting t => exact ⟨_, .leave (.inr ⟨t, hphase⟩), rfl⟩
    | computing t d => exact absurd hphase (hcomputing t d)
    | returned a => exact absurd hphase (hreturned a)
    | cancelled => exact ⟨_, .rest nofun, by rw [hphase]⟩

end Call

/-! ## Steps of a workbench -/

/-- What a move makes of a workbench. -/
inductive Step (w : Workbench) : Move → Workbench → Prop where
  /-- The call that the move is for does not exist. -/
  | idle {m : Move} (hedit : m.isEdit = false) : Step w m w
  /-- A call is made. -/
  | make {key : Key} {intent : Intent} :
      Step w (.make key intent) { w with calls := w.calls ++ [{ key, intent }] }
  /-- A call takes a turn. -/
  | turn {m : Move} {i : Nat} {call : Call} {c : Cache} {p : Phase}
      (hcall : w.calls[i]? = some call) (hedit : m.isEdit = false)
      (hturn : Turn w.cache call i m c p) : Step w m (w.update i c (call.atPhase p))
  /-- The cache is changed directly. -/
  | edit {m : Move} (hedit : m.isEdit) : Step w m { w with cache := w.cache.edit m }

namespace Workbench

theorem step_apply (w : Workbench) (m : Move) : Step w m (w.apply m) := by
  cases m with
  | make key intent => exact .make
  | resume i =>
    -- A move for a call that does not exist does nothing; any other is a turn of that call.
    cases hcall : w.calls[i]? with
    | none => simpa [apply, hcall] using Step.idle (w := w) (m := .resume i) rfl
    | some call =>
      obtain ⟨p, hturn, hp⟩ := call.turn_resume w.cache i
      simp only [apply, hcall]
      rw [hp]
      exact .turn hcall rfl hturn
  | finish i result =>
    cases hcall : w.calls[i]? with
    | none => simpa [apply, hcall] using Step.idle (w := w) (m := .finish i result) rfl
    | some call =>
      obtain ⟨p, hturn, hp⟩ := call.turn_finish w.cache i result
      simp only [apply, hcall]
      rw [hp]
      exact .turn hcall rfl hturn
  | cancel i =>
    cases hcall : w.calls[i]? with
    | none => simpa [apply, hcall] using Step.idle (w := w) (m := .cancel i) rfl
    | some call =>
      obtain ⟨p, hturn, hp⟩ := call.turn_cancel w.cache i
      simp only [apply, hcall]
      rw [hp]
      exact .turn hcall rfl hturn
  | replace r => exact .edit rfl
  | invalidate file => exact .edit rfl
  | invalidateKey k => exact .edit rfl
  | clear => exact .edit rfl

/-- An edit changes nothing of a workbench but its cache. -/
theorem apply_of_isEdit {m : Move} (h : m.isEdit) (w : Workbench) :
    w.apply m = { w with cache := w.cache.edit m } := by
  cases m with
  | replace => rfl
  | invalidate => rfl
  | invalidateKey => rfl
  | clear => rfl
  | _ => cases h

end Workbench

end HotComponents
