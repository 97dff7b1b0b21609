import HotComponents.Proofs.Cache.Sound
import Mathlib.Logic.Relator

/-!
# What a cache is to one slot

Two caches are alike for a slot if nobody who asks for that slot can tell them apart. They may differ
in all other slots, and even in the numbers of the tickets, since those come from one count for all
slots: it is enough that tickets of one cache correspond to tickets of the other, one to one. The
records themselves are the same, but they may have been computed under tickets of other numbers.

Whatever happens to the slot in both caches leaves them alike, and so does whatever happens to other
slots in one of them.

* `Call.resume_alike`, `Call.finish_alike`, `Call.cancel_alike`: calls on alike caches do alike;
* `Cache.Alike.edit`: so do edits;
* `Cache.Alike.aside_turn`: turns of calls for other slots do not matter.
-/

namespace HotComponents

/-- Tickets of one cache correspond to tickets of another one. -/
abbrev Tickets := Nat → Nat → Prop

section Alike

variable (R : Tickets)

/-- What the two caches hold in the slot. -/
inductive Content.Alike : Option Content → Option Content → Prop where
  | vacant : Alike none none
  | ready {f f' : Filed} (h : f.record = f'.record) : Alike (some (.ready f)) (some (.ready f'))
  | pending {t t' : Nat} {d d' : Option Filed} (ht : R t t')
      (hd : d.map Filed.record = d'.map Filed.record) :
      Alike (some (.pending t d)) (some (.pending t' d'))

/-- What is known of two tickets. -/
inductive Announcement.Alike : Option Announcement → Option Announcement → Prop where
  | unheard : Alike none none
  | record {f f' : Filed} (h : f.record = f'.record) : Alike (some (.record f)) (some (.record f'))
  | failure (e : BuildError) : Alike (some (.failure e)) (some (.failure e))
  | abandoned : Alike (some .abandoned) (some .abandoned)

/-- How far two calls have come. -/
inductive Phase.Alike : Phase → Phase → Prop where
  | arriving : Alike .arriving .arriving
  | waiting {t t' : Nat} (ht : R t t') : Alike (.waiting t) (.waiting t')
  | computing {t t' : Nat} {d d' : Option Filed} (ht : R t t')
      (hd : d.map Filed.record = d'.map Filed.record) :
      Alike (.computing t d) (.computing t' d')
  | returned {a a' : Answer Filed} (h : a.map Filed.record = a'.map Filed.record) :
      Alike (.returned a) (.returned a')
  | cancelled : Alike .cancelled .cancelled

/-- The calls ask for the same and have come equally far. -/
structure Call.Alike (call call' : Call) : Prop where
  key : call'.key = call.key
  intent : call'.intent = call.intent
  phase : Phase.Alike R call.phase call'.phase

/-- Nobody who asks for the slot can tell the caches apart. -/
structure Cache.Alike (k : Key) (c c' : Cache) : Prop where
  content : Content.Alike R (c.content? k) (c'.content? k)
  heard : ∀ {t t' : Nat}, R t t' → Announcement.Alike (c.announcement? t) (c'.announcement? t')
  issued : ∀ {t t' : Nat}, R t t' → t < c.nextTicket ∧ t' < c'.nextTicket
  oneToOne : Relator.BiUnique R

end Alike

/-- Two tickets have come to correspond to each other, the next ones. -/
def Tickets.issue (R : Tickets) (c c' : Cache) : Tickets := fun t t' =>
  R t t' ∨ t = c.nextTicket ∧ t' = c'.nextTicket

/-- The correspondence is as it was, or two tickets have been issued in it. -/
def Tickets.Grows (R R' : Tickets) (c c' : Cache) : Prop := R' = R ∨ R' = R.issue c c'

variable {R R' : Tickets} {k : Key} {c c' : Cache} {call call' : Call} {t t' : Nat}
  {d d' : Option Filed}

/-- What corresponded before corresponds still. -/
theorem Tickets.Grows.mono (h : R.Grows R' c c') (ht : R t t') : R' t t' := by
  rcases h with rfl | rfl
  · exact ht
  · exact .inl ht

/-- Phases stay alike under more correspondences. -/
theorem Phase.Alike.mono (hR : ∀ {t t'}, R t t' → R' t t') {p p' : Phase}
    (h : Phase.Alike R p p') : Phase.Alike R' p p' := by
  cases h with
  | arriving => exact .arriving
  | waiting ht => exact .waiting (hR ht)
  | computing ht hd => exact .computing (hR ht) hd
  | returned h => exact .returned h
  | cancelled => exact .cancelled

/-- So do calls. -/
theorem Call.Alike.mono (hR : ∀ {t t'}, R t t' → R' t t') (h : Call.Alike R call call') :
    Call.Alike R' call call' :=
  ⟨h.key, h.intent, h.phase.mono hR⟩

/-- The calls go on to phases that are alike. -/
theorem Call.Alike.atPhase (h : Call.Alike R call call') {p p' : Phase}
    (hp : Phase.Alike R' p p') : Call.Alike R' (call.atPhase p) (call'.atPhase p') :=
  ⟨h.key, h.intent, hp⟩

/-- They take the same records. -/
theorem Call.Alike.reuse (h : Call.Alike R call call') : call'.reuse = call.reuse := by
  simp only [Call.reuse, h.intent]

/-- The same records are displaced from the slot or put back into it. -/
theorem Content.alike_ready (hd : d.map Filed.record = d'.map Filed.record) :
    Content.Alike R (d.map .ready) (d'.map .ready) := by
  cases d <;> cases d' <;> simp at hd
  · exact .vacant
  · exact .ready hd

namespace Cache.Alike

/-- A slot is the same however its file is spelled. -/
theorem congr {l : Key} (h : Cache.Alike R k c c') (hk : l.slot = k.slot) :
    Cache.Alike R l c c' where
  content := by
    rw [Cache.content?_congr hk, Cache.content?_congr hk]
    exact h.content
  heard := h.heard
  issued := h.issued
  oneToOne := h.oneToOne

theorem eq_iff (h : Cache.Alike R k c c') {u u' : Nat} (ht : R t t') (hu : R u u') :
    t = u ↔ t' = u' :=
  Relator.rel_eq h.oneToOne ht hu

/-- The slot is pending in both under tickets that correspond, or in neither. -/
theorem isPending (h : Cache.Alike R k c c') (ht : R t t') :
    c'.isPending k t' = c.isPending k t := by
  have hcontent := h.content
  unfold Cache.isPending
  generalize c.content? k = x at hcontent
  generalize c'.content? k = x' at hcontent
  cases hcontent with
  | vacant => rfl
  | ready => rfl
  | pending hu =>
    rw [Bool.eq_iff_iff, beq_iff_eq, beq_iff_eq]
    exact (h.eq_iff hu ht).symm

/-- The caches after the next tickets are issued for the slot. -/
theorem issue (h : Cache.Alike R k c c') (hc : c.announcement? c.nextTicket = none)
    (hc' : c'.announcement? c'.nextTicket = none)
    (hd : d.map Filed.record = d'.map Filed.record) :
    Cache.Alike (R.issue c c') k (c.issue k d) (c'.issue k d') where
  content := by
    rw [Cache.content?_issue, Cache.content?_issue, if_pos rfl, if_pos rfl]
    exact .pending (.inr ⟨rfl, rfl⟩) hd
  heard ht := by
    rcases ht with ht | ⟨rfl, rfl⟩
    · exact h.heard ht
    · rw [Cache.announcement?_issue, Cache.announcement?_issue, hc, hc']
      exact .unheard
  issued ht := by
    simp only [Cache.nextTicket_issue]
    rcases ht with ht | ⟨rfl, rfl⟩
    · have := h.issued ht
      omega
    · omega
  oneToOne := by
    -- The new tickets are not among those that correspond already.
    constructor
    · rintro t u t' (ht | ⟨rfl, rfl⟩) (hu | ⟨rfl, hu⟩)
      · exact h.oneToOne.1 ht hu
      · exact absurd (h.issued ht).2 (by omega)
      · exact absurd (h.issued hu).2 (by omega)
      · rfl
    · rintro t t' u' (ht | ⟨rfl, rfl⟩) (hu | ⟨hu, rfl⟩)
      · exact h.oneToOne.2 ht hu
      · exact absurd (h.issued ht).1 (by omega)
      · exact absurd (h.issued hu).1 (by omega)
      · rfl

/-- The caches after it is announced what became of tickets that correspond. -/
theorem announce (h : Cache.Alike R k c c') (ht : R t t') {a a' : Announcement}
    (ha : Announcement.Alike (some a) (some a')) :
    Cache.Alike R k (c.announce t a) (c'.announce t' a') where
  content := h.content
  heard {u u'} hu := by
    rw [Cache.announcement?_announce, Cache.announcement?_announce]
    by_cases hut : u = t
    · rwa [if_pos hut, if_pos ((h.eq_iff hu ht).1 hut)]
    · rw [if_neg hut, if_neg fun hut' => hut ((h.eq_iff hu ht).2 hut')]
      exact h.heard hu
  issued := h.issued
  oneToOne := h.oneToOne

/-- The same record is stored under tickets that correspond, or comes too late in both. -/
theorem redeem (h : Cache.Alike R k c c') (ht : R t t') (r : Record) :
    Cache.Alike R k (c.redeem k t r) (c'.redeem k t' r) where
  content := by
    rw [Cache.content?_redeem, Cache.content?_redeem, h.isPending ht]
    split
    · exact .ready rfl
    · exact h.content
  heard hu := by simpa only [Cache.announcement?_redeem] using h.heard hu
  issued hu := by simpa only [Cache.nextTicket_redeem] using h.issued hu
  oneToOne := h.oneToOne

/-- What was displaced by the computes goes back in both slots, or in neither. -/
theorem surrender (h : Cache.Alike R k c c') (ht : R t t')
    (hd : d.map Filed.record = d'.map Filed.record) :
    Cache.Alike R k (c.surrender k t d) (c'.surrender k t' d') where
  content := by
    rw [Cache.content?_surrender, Cache.content?_surrender, h.isPending ht]
    split
    · exact Content.alike_ready hd
    · exact h.content
  heard hu := by simpa only [Cache.announcement?_surrender] using h.heard hu
  issued hu := by simpa only [Cache.nextTicket_surrender] using h.issued hu
  oneToOne := h.oneToOne

/-- The same edit keeps caches alike, whether it touches the slot or not. -/
theorem edit (h : Cache.Alike R k c c') (m : Move) : Cache.Alike R k (c.edit m) (c'.edit m) where
  content := by
    rw [Cache.content?_edit, Cache.content?_edit]
    split
    · cases m <;> first | exact .vacant | exact .ready rfl
    · exact h.content
  heard hu := by simpa only [Cache.announcement?_edit] using h.heard hu
  issued hu := by simpa only [Cache.nextTicket_edit] using h.issued hu
  oneToOne := h.oneToOne

/-- Both slots hold something, or neither does. -/
theorem isSome_content? (h : Cache.Alike R k c c') :
    (c'.content? k).isSome = (c.content? k).isSome := by
  have hcontent := h.content
  generalize c.content? k = x at hcontent
  generalize c'.content? k = x' at hcontent
  cases hcontent <;> rfl

/-- Both caches show the same record. -/
theorem peek (h : Cache.Alike R k c c') : c'.peek k = c.peek k := by
  have hcontent := h.content
  unfold Cache.peek
  generalize c.content? k = x at hcontent
  generalize c'.content? k = x' at hcontent
  cases hcontent with
  | vacant => rfl
  | ready hf => exact congrArg some hf.symm
  | pending => rfl

end Cache.Alike

/-- An edit of other slots does not matter. -/
theorem Cache.Alike.aside_edit (h : Cache.Alike R k c c') {m : Move} (hm : m.touches k = false) :
    Cache.Alike R k (c.edit m) c' where
  content := by
    rw [Cache.content?_edit, hm]
    exact h.content
  heard hu := by simpa only [Cache.announcement?_edit] using h.heard hu
  issued hu := by simpa only [Cache.nextTicket_edit] using h.issued hu
  oneToOne := h.oneToOne

/-- What is announced of other tickets does not matter. -/
theorem Cache.Alike.aside_announce (h : Cache.Alike R k c c') (ht : ∀ t', ¬ R t t')
    (a : Announcement) : Cache.Alike R k (c.announce t a) c' where
  content := h.content
  heard {u u'} hu := by
    have hut : u ≠ t := by
      rintro rfl
      exact ht u' hu
    rw [Cache.announcement?_announce, if_neg hut]
    exact h.heard hu
  issued := h.issued
  oneToOne := h.oneToOne

/-- A record that is stored in another slot does not matter. -/
theorem Cache.Alike.aside_redeem (h : Cache.Alike R k c c') {l : Key} {r : Record}
    (hslot : k.slot ≠ l.slot) : Cache.Alike R k (c.redeem l t r) c' where
  content := by
    rw [Cache.content?_redeem, if_neg fun hboth => hslot hboth.2]
    exact h.content
  heard hu := by simpa only [Cache.announcement?_redeem] using h.heard hu
  issued hu := by simpa only [Cache.nextTicket_redeem] using h.issued hu
  oneToOne := h.oneToOne

/-- Nor does a compute that fails for another slot. -/
theorem Cache.Alike.aside_surrender (h : Cache.Alike R k c c') {l : Key}
    (hslot : k.slot ≠ l.slot) : Cache.Alike R k (c.surrender l t d) c' where
  content := by
    rw [Cache.content?_surrender, if_neg fun hboth => hslot hboth.2]
    exact h.content
  heard hu := by simpa only [Cache.announcement?_surrender] using h.heard hu
  issued hu := by simpa only [Cache.nextTicket_surrender] using h.issued hu
  oneToOne := h.oneToOne

/-- Turns of calls for other slots do not matter. -/
theorem Cache.Alike.aside_turn (h : Cache.Alike R k c c') {c₁ : Cache} {i : Nat} {m : Move}
    {p : Phase} (hslot : k.slot ≠ call.key.slot)
    (hown : ∀ {t t' : Nat} {d : Option Filed}, call.phase = .computing t d → ¬ R t t')
    (hturn : Turn c call i m c₁ p) : Cache.Alike R k c₁ c' := by
  cases hturn with
  | @lead d =>
    refine ⟨?_, h.heard, fun hu => ?_, h.oneToOne⟩
    · rw [Cache.content?_issue, if_neg hslot]
      exact h.content
    · have := h.issued hu
      simp only [Cache.nextTicket_issue]
      omega
  | land hphase => exact (h.aside_redeem hslot).aside_announce (fun _ => hown hphase) _
  | fail hphase => exact (h.aside_surrender hslot).aside_announce (fun _ => hown hphase) _
  | quit hphase => exact (h.aside_surrender hslot).aside_announce (fun _ => hown hphase) _
  | _ => exact h

/-! ## Calls for the slot -/

/-- The phase that a claim brings a call to. -/
def Claim.phase : Claim → Phase
  | hit f => .returned (.record f)
  | wait t => .waiting t
  | lead t d => .computing t d

/-- Claims on alike caches come to the same. -/
theorem Cache.Alike.claim (h : Cache.Alike R k c c') (reuse : Reuse)
    (hc : c.announcement? c.nextTicket = none) (hc' : c'.announcement? c'.nextTicket = none) :
    ∃ R' : Tickets, R.Grows R' c c' ∧
      Cache.Alike R' k (c.claim k reuse).1 (c'.claim k reuse).1 ∧
      Phase.Alike R' (c.claim k reuse).2.phase (c'.claim k reuse).2.phase := by
  have hcontent := h.content
  have hlead {d d' : Option Filed} (hd : d.map Filed.record = d'.map Filed.record) :
      ∃ R' : Tickets, R.Grows R' c c' ∧ Cache.Alike R' k (c.issue k d) (c'.issue k d') ∧
        Phase.Alike R' (.computing c.nextTicket d) (.computing c'.nextTicket d') :=
    ⟨_, .inr rfl, h.issue hc hc' hd, .computing (.inr ⟨rfl, rfl⟩) hd⟩
  unfold Cache.claim
  generalize c.content? k = x at hcontent
  generalize c'.content? k = x' at hcontent
  -- Both slots are vacant, hold the same record or are pending, so both claims take the same
  -- branch. Only a claim that leads issues tickets.
  cases hcontent with
  | vacant => exact hlead rfl
  | @ready f f' hf =>
    by_cases haccepts : reuse.accepts f.record
    · simp only [haccepts, hf ▸ haccepts, if_true]
      exact ⟨R, .inl rfl, h, .returned (congrArg Answer.record hf)⟩
    · simp only [haccepts, hf ▸ haccepts]
      exact hlead (congrArg some hf)
  | pending ht hd => exact ⟨R, .inl rfl, h, .waiting ht⟩

namespace Call

/-- But for calls that only wait for a slot to settle, a look is a claim. -/
theorem look_of_ne_settle (hintent : call.intent ≠ .settle) (c : Cache) :
    (call.look c).1 = (c.claim call.key call.reuse).1 ∧
      (call.look c).2.1 = call.atPhase (c.claim call.key call.reuse).2.phase := by
  unfold look
  split
  · contradiction
  · dsimp only
    split <;> simp_all [Claim.phase]

/-- Calls that have come equally far look at their slots. -/
theorem look_alike (h : Cache.Alike R call.key c c') (hcall : call.Alike R call')
    (hc : c.announcement? c.nextTicket = none) (hc' : c'.announcement? c'.nextTicket = none) :
    ∃ R' : Tickets, R.Grows R' c c' ∧
      Cache.Alike R' call.key (call.look c).1 (call'.look c').1 ∧
      Call.Alike R' (call.look c).2.1 (call'.look c').2.1 := by
  -- A settling call only reads the slot; all others claim it.
  by_cases hintent : call.intent = .settle
  · have hcontent := h.content
    simp only [look, hcall.intent, hintent, hcall.key]
    generalize c.content? call.key = x at hcontent
    generalize c'.content? call.key = x' at hcontent
    cases hcontent with
    | vacant => exact ⟨R, .inl rfl, h, hcall.atPhase (.returned rfl)⟩
    | ready hf => exact ⟨R, .inl rfl, h, hcall.atPhase (.returned (congrArg Answer.record hf))⟩
    | pending ht hd => exact ⟨R, .inl rfl, h, hcall.atPhase (.waiting ht)⟩
  · obtain ⟨hcache, hphase⟩ := look_of_ne_settle hintent c
    obtain ⟨hcache', hphase'⟩ := look_of_ne_settle (hcall.intent ▸ hintent) c'
    obtain ⟨R', hgrows, halike, hphases⟩ := h.claim call.reuse hc hc'
    rw [hcache, hphase, hcache', hphase', hcall.key, hcall.reuse]
    exact ⟨R', hgrows, halike, hcall.atPhase hphases⟩

/-- Calls of one intent take the same from what is announced, or both take nothing. -/
theorem heard_alike (hintent : call'.intent = call.intent) {a a' : Announcement}
    (ha : Announcement.Alike (some a) (some a')) :
    (call.heard? a = none ∧ call'.heard? a' = none) ∨
      ∃ x x', call.heard? a = some x ∧ call'.heard? a' = some x' ∧
        x.map Filed.record = x'.map Filed.record := by
  -- What a call makes of an announcement is decided by its intent and by the record in it.
  cases ha with
  | @record f f' hf =>
    cases hcall : call.intent with
    | obtain reuse =>
      by_cases haccepts : reuse.accepts f.record
      · exact .inr ⟨.record f, .record f', by simp [heard?, hcall, haccepts],
          by simp [heard?, hintent, hcall, ← hf, haccepts], congrArg Answer.record hf⟩
      · exact .inl (by simp [heard?, hintent, hcall, ← hf, haccepts])
    | recompute => exact .inl (by simp [heard?, hintent, hcall])
    | settle =>
      exact .inr ⟨.record f, .record f', by simp [heard?, hcall], by simp [heard?, hintent, hcall],
        congrArg Answer.record hf⟩
  | failure e =>
    cases hcall : call.intent with
    | recompute => exact .inl (by simp [heard?, hintent, hcall])
    | _ =>
      exact .inr ⟨.failure e, .failure e, by simp [heard?, hcall], by simp [heard?, hintent, hcall],
        rfl⟩
  | abandoned => cases hcall : call.intent <;> exact .inl (by simp [heard?, hintent, hcall])

/-- They go on as far as they can. -/
theorem resume_alike (h : Cache.Alike R call.key c c') (hcall : call.Alike R call')
    (hc : c.announcement? c.nextTicket = none) (hc' : c'.announcement? c'.nextTicket = none) :
    ∃ R' : Tickets, R.Grows R' c c' ∧
      Cache.Alike R' call.key (call.resume c).1 (call'.resume c').1 ∧
      Call.Alike R' (call.resume c).2.1 (call'.resume c').2.1 := by
  have hlooks := look_alike h hcall hc hc'
  have hrests : ∃ R' : Tickets, R.Grows R' c c' ∧ Cache.Alike R' call.key c c' ∧
      Call.Alike R' call call' := ⟨R, .inl rfl, h, hcall⟩
  have hphase := hcall.phase
  unfold resume
  generalize hp : call.phase = p at hphase
  generalize hp' : call'.phase = p' at hphase
  -- An arriving call looks, and so does a waiting one that cannot use what it hears.
  cases hphase with
  | arriving => exact hlooks
  | @waiting t t' ht =>
    have hheard := h.heard ht
    dsimp only
    generalize ha : c.announcement? t = a at hheard
    generalize ha' : c'.announcement? t' = a' at hheard
    cases a with
    | none =>
      cases hheard
      exact hrests
    | some a =>
      cases a' with
      | none => cases hheard
      | some a' =>
        rcases heard_alike hcall.intent hheard with ⟨hnone, hnone'⟩ | ⟨x, x', hx, hx', hsame⟩
        · simp only [hnone, hnone']
          exact hlooks
        · simp only [hx, hx']
          exact ⟨R, .inl rfl, h, hcall.atPhase (.returned hsame)⟩
  | computing => exact hrests
  | returned => exact hrests
  | cancelled => exact hrests

/-- Their computes end. -/
theorem finish_alike (h : Cache.Alike R call.key c c') (hcall : call.Alike R call')
    (result : Except BuildError Record) :
    Cache.Alike R call.key (call.finish c result).1 (call'.finish c' result).1 ∧
      Call.Alike R (call.finish c result).2.1 (call'.finish c' result).2.1 := by
  have hphase := hcall.phase
  unfold finish
  generalize hp : call.phase = p at hphase
  generalize hp' : call'.phase = p' at hphase
  cases hphase with
  | computing ht hd =>
    rw [hcall.key]
    cases result with
    | ok r =>
      refine ⟨(h.redeem ht r).announce ht (.record rfl), hcall.atPhase (.returned ?_)⟩
      -- A recompute also returns what it displaced, which is the same record in both.
      simp only [computedAnswer, hcall.intent]
      split
      · simp only [Answer.map, hd]
      · rfl
    | error e =>
      refine ⟨(h.surrender ht hd).announce ht ?_, hcall.atPhase (.returned rfl)⟩
      simp only [failureAnnouncement, hcall.intent]
      split
      · exact .abandoned
      · exact .failure e
  | _ => exact ⟨h, hcall⟩

/-- They are given up. -/
theorem cancel_alike (h : Cache.Alike R call.key c c') (hcall : call.Alike R call') :
    Cache.Alike R call.key (call.cancel c).1 (call'.cancel c').1 ∧
      Call.Alike R (call.cancel c).2 (call'.cancel c').2 := by
  have hphase := hcall.phase
  unfold cancel
  generalize hp : call.phase = p at hphase
  generalize hp' : call'.phase = p' at hphase
  cases hphase with
  | computing ht hd =>
    rw [hcall.key]
    exact ⟨(h.surrender ht hd).announce ht .abandoned, hcall.atPhase .cancelled⟩
  | returned => exact ⟨h, hcall⟩
  | _ => exact ⟨h, hcall.atPhase .cancelled⟩

end Call

end HotComponents
