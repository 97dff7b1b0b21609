import HotComponents.Proofs.Cache.Swept
import HotComponents.Proofs.Session.Delivery

/-!
# Slots that an answer to a change empties

Only a task that answers to a change edits the cache of a session that is neither closed nor changed
from outside, and it does so to slots of the server alone: whatever else it does in a turn is for
the browser. So in an event such a slot is left alone, or it is vacant behind the event, and nobody
has begun to wait or to compute for it meanwhile. Its tickets are redeemed in order but for those
that were issued before an answer has emptied it.

* `Steps.unedited`, `Steps.onlyEmptied`: what the steps of a turn do to the workbench;
* `spared_or_onlyEmptied`: what an event does to a slot;
* `ordered_unless_emptied`: what is known of the tickets of a slot.
-/

namespace HotComponents

open ModuleId

namespace Workbench

variable {w w' w'' : Workbench} {m : Move} {k : Key} {call : Call} {n : Nat}

/-- A workbench comes from another one without an edit. -/
def Unedited (w w' : Workbench) : Prop :=
  ∃ moves : List Move, w' = w.run moves ∧ ∀ m ∈ moves, m.isEdit = false

/-- Nothing has happened. -/
theorem unedited_refl (w : Workbench) : Unedited w w := ⟨[], rfl, by simp⟩

/-- A move that is no edit. -/
theorem unedited_apply (h : m.isEdit = false) : Unedited w (w.apply m) :=
  ⟨[m], rfl, by simpa using h⟩

/-- Moves one after the other. -/
theorem Unedited.trans (h : Unedited w w') (h' : Unedited w' w'') : Unedited w w'' := by
  obtain ⟨moves, rfl, hquiet⟩ := h
  obtain ⟨more, rfl, hquiet'⟩ := h'
  exact ⟨moves ++ more, (run_append _ _ _).symm, List.forall_mem_append.2 ⟨hquiet, hquiet'⟩⟩

/-- A workbench comes from another one while a slot is only emptied: the slot is left alone, or it
is vacant in the end, and no call for it moves. -/
structure OnlyEmptied (k : Key) (w w' : Workbench) : Prop where
  slot : (∃ moves : List Move, w' = w.run moves ∧ ∀ m ∈ moves, m.touches k = false) ∨
    w'.cache.content? k = none
  vacant : w.cache.content? k = none → w'.cache.content? k = none
  calls : ∀ {n : Nat} {call : Call}, w'.calls[n]? = some call → call.key.slot = k.slot →
    w.calls[n]? = some call

/-- Nothing has happened. -/
theorem onlyEmptied_refl (k : Key) (w : Workbench) : OnlyEmptied k w w :=
  ⟨.inl ⟨[], rfl, by simp⟩, id, fun hcall _ => hcall⟩

/-- A slot that is emptied on the way is still vacant in the end. -/
theorem OnlyEmptied.trans (h : OnlyEmptied k w w') (h' : OnlyEmptied k w' w'') :
    OnlyEmptied k w w'' where
  slot := by
    rcases h'.slot with ⟨more, rfl, hspare'⟩ | hvacant
    · rcases h.slot with ⟨moves, rfl, hspare⟩ | hvacant
      · left
        exact ⟨moves ++ more, (run_append _ _ _).symm,
          List.forall_mem_append.2 ⟨hspare, hspare'⟩⟩
      · exact .inr (h'.vacant hvacant)
    · exact .inr hvacant
  vacant hvacant := h'.vacant (h.vacant hvacant)
  calls hcall hslot := h.calls (h'.calls hcall hslot) hslot

/-- A slot is emptied, that one or another one. -/
theorem onlyEmptied_drop (l : Key) : OnlyEmptied k w (w.apply (.invalidateKey l)) := by
  have hcontent : (w.apply (.invalidateKey l)).cache.content? k =
      if k.slot = l.slot then none else w.cache.content? k := Cache.content?_invalidateKey _ _ _
  constructor
  · by_cases hslot : k.slot = l.slot
    · exact .inr (hcontent.trans (if_pos hslot))
    · have hother : l.same k = false := by
        rw [← Bool.not_eq_true, Key.same_iff]
        exact Ne.symm hslot
      exact .inl ⟨[.invalidateKey l], rfl, by simpa [Move.touches] using hother⟩
  · intro hvacant
    rw [hcontent, hvacant, ite_self]
  · exact fun hcall _ => hcall

/-- A call is made for another slot. -/
theorem onlyEmptied_make {l : Key} (hl : l.slot ≠ k.slot) (intent : Intent) :
    OnlyEmptied k w (w.apply (.make l intent)) := by
  refine ⟨.inl ⟨[.make l intent], rfl, by simp [Move.touches]⟩, id, ?_⟩
  intro n call hcall hslot
  rcases calls_make hcall with hold | ⟨_, rfl⟩
  · exact hold
  · exact absurd hslot hl

/-- A turn of a call for another slot leaves a slot as it is. -/
theorem content?_turn_of_ne {c : Cache} {p : Phase} (hturn : Turn w.cache call n m c p)
    (hslot : call.key.slot ≠ k.slot) : c.content? k = w.cache.content? k := by
  have hne := Ne.symm hslot
  cases hturn with
  | lead => rw [Cache.content?_issue, if_neg hne]
  | land => exact (w.cache.content?_redeem _ _ _ _).trans (if_neg fun hand => hne hand.2)
  | fail => exact (w.cache.content?_surrender _ _ _ _).trans (if_neg fun hand => hne hand.2)
  | quit => exact (w.cache.content?_surrender _ _ _ _).trans (if_neg fun hand => hne hand.2)
  | _ => rfl

/-- A call for another slot moves. -/
theorem onlyEmptied_turn (hm : m.call? = some n) (hcall : w.calls[n]? = some call)
    (hslot : call.key.slot ≠ k.slot) : OnlyEmptied k w (w.apply m) := by
  have htouch : m.touches k = false := by
    cases m with
    | resume i => rfl
    | finish i result => rfl
    | cancel i => rfl
    | _ => cases hm
  obtain ⟨c, p, happly, hturn⟩ := exists_turn hm hcall
  refine ⟨.inl ⟨[m], rfl, by simpa using htouch⟩, ?_, ?_⟩
  · intro hvacant
    rw [happly]
    exact (content?_turn_of_ne hturn hslot).trans hvacant
  · intro l other hother hslot'
    rw [happly, calls_update hcall] at hother
    split at hother
    · cases hother
      exact absurd hslot' hslot
    · exact hother

/-- The call with a number, if one is named, is for another slot. -/
def CallsAside (w : Workbench) (k : Key) (own : Option Nat) : Prop :=
  ∀ n, own = some n → ∃ call, w.calls[n]? = some call ∧ call.key.slot ≠ k.slot

/-- Where no call is named, none has a slot. -/
theorem callsAside_none (w : Workbench) (k : Key) : w.CallsAside k none := by
  rintro n ⟨⟩

end Workbench

namespace Session

open Workbench

variable {s y start : Session} {old : Stage} {k : Key} {events : List Event} {e : Event}

/-! ## Turns -/

/-- A task that does not answer to a change edits nothing. -/
theorem Steps.unedited {own₀ own : Option Nat} (h : Steps old own₀ s own y)
    (hserves : old.answers = false) : Unedited s.bench y.bench := by
  have hact (y : Session) {m : Move} (hm : m.isEdit = false) : Unedited y.bench (y.act m).bench :=
    unedited_apply hm
  induction h with
  | start => exact unedited_refl _
  | say _ _ ih => exact ih
  | compile _ _ ih => exact ih
  | call _ _ _ ih => exact (ih.trans (hact _ rfl)).trans (hact _ rfl)
  | resume _ ih => exact ih.trans (hact _ rfl)
  | finish _ _ ih => exact ih.trans (hact _ rfl)
  | giveUp _ ih => exact ih.trans (hact _ rfl)
  | leave _ _ ih => exact ih
  | drop _ hanswers =>
    rw [hserves] at hanswers
    cases hanswers

/-- A task that answers to a change only empties slots of the server: its own calls are for the
browser. -/
theorem Steps.onlyEmptied {own₀ own : Option Nat} (h : Steps old own₀ s own y)
    (hk : k.target = .ssr) (hanswers : old.answers) (hown : s.bench.CallsAside k own₀) :
    OnlyEmptied k s.bench y.bench ∧ y.bench.CallsAside k own := by
  have hmoves {w : Workbench} {m : Move} {n : Nat} (hm : m.call? = some n)
      (hcalls : w.CallsAside k (some n)) :
      OnlyEmptied k w (w.apply m) ∧ (w.apply m).CallsAside k (some n) := by
    obtain ⟨call, hcall, hslot⟩ := hcalls n rfl
    obtain ⟨call', hcall', hkey⟩ := call_step (step_apply w m) hcall
    refine ⟨onlyEmptied_turn hm hcall hslot, ?_⟩
    rintro n' ⟨⟩
    exact ⟨call', hcall', hkey ▸ hslot⟩
  induction h with
  | start => exact ⟨onlyEmptied_refl _ _, hown⟩
  | say _ _ ih => exact ih
  | compile _ _ ih => exact ih
  | @call y _ key intent htarget _ ih =>
    have hslot : key.slot ≠ k.slot := Ne.symm (Key.slot_ne hk (htarget hanswers))
    have hmade : (y.bench.apply (.make key intent)).CallsAside k (some y.bench.calls.length) := by
      rintro n ⟨⟩
      exact ⟨⟨key, intent, .arriving⟩, by simp [Workbench.apply], hslot⟩
    obtain ⟨hresumed, hcalls⟩ := hmoves (m := .resume y.bench.calls.length) rfl hmade
    exact ⟨(ih.1.trans (onlyEmptied_make hslot intent)).trans hresumed, hcalls⟩
  | @resume n _ _ ih =>
    obtain ⟨hresumed, hcalls⟩ := hmoves (m := .resume n) rfl ih.2
    exact ⟨ih.1.trans hresumed, hcalls⟩
  | @finish n _ _ outcome ih =>
    exact ⟨ih.1.trans (hmoves (m := .finish n outcome) rfl ih.2).1, callsAside_none _ _⟩
  | @giveUp n _ _ ih => exact ⟨ih.1.trans (hmoves (m := .cancel n) rfl ih.2).1, callsAside_none _ _⟩
  | leave _ _ ih => exact ⟨ih.1, callsAside_none _ _⟩
  | @drop own y _ _ l _ ih => exact ⟨ih.1.trans (onlyEmptied_drop l), ih.2⟩

/-- The call of a task that answers to a change is for the browser. -/
theorem callsAside_of_fits (hk : k.target = .ssr) (hanswers : old.answers) {w : Workbench}
    (hfits : old.Fits s.options w) : w.CallsAside k (stageCall? old) := by
  have hslot (component : FilePath) : (⟨component, .dom⟩ : Key).slot ≠ k.slot :=
    Ne.symm (Key.slot_ne hk rfl)
  cases old with
  | fresh => exact callsAside_none _ _
  | updating u component n making =>
    rintro _ ⟨⟩
    cases making with
    | none =>
      obtain ⟨t, hcall⟩ := hfits
      exact ⟨_, hcall, hslot component⟩
    | some making =>
      obtain ⟨t, d, hcall⟩ := hfits.1
      exact ⟨_, hcall, hslot component⟩
  | _ => cases hanswers

/-- Behind a turn of a task that serves, nothing is edited. -/
theorem unedited_resumeFrom (i : Nat) (hserves : old.answers = false) :
    Unedited s.bench (s.resumeFrom i old).bench := by
  obtain ⟨y, own, z, -, hbench, hsteps, hbehind⟩ := exists_steps s i old
  rw [hbehind, ← hbench]
  exact hsteps.unedited hserves

/-- Behind a turn of a task that answers to a change, slots of the server are emptied at most. -/
theorem onlyEmptied_resumeFrom (i : Nat) (hk : k.target = .ssr) (hanswers : old.answers)
    (hfits : old.Fits s.options s.bench) :
    OnlyEmptied k s.bench (s.resumeFrom i old).bench := by
  obtain ⟨y, own, z, -, hbench, hsteps, hbehind⟩ := exists_steps s i old
  rw [hbehind, ← hbench]
  refine (hsteps.onlyEmptied hk hanswers ?_).1
  rw [hbench]
  exact callsAside_of_fits hk hanswers hfits

/-! ## Events and runs -/

/-- What an event does to a slot: it leaves the slot alone, or it resumes a task that answers to a
change, and that only empties slots of the server. -/
theorem spared_or_onlyEmptied (h : Attended s) (he : e.isInside) (k : Key) :
    (∃ moves : List Move, (s.apply e).bench = s.bench.run moves ∧
      ∀ m ∈ moves, m.touches k = false) ∨
    k.target = .ssr ∧ ∃ j old, e = .resume j ∧ s.stage? j = some old ∧ old.answers ∧
      OnlyEmptied k s.bench (s.resume j).bench := by
  -- Moves that are no edits touch no slot.
  have huntouched {w : Workbench} (hunedited : Unedited s.bench w) :
      ∃ moves : List Move, w = s.bench.run moves ∧ ∀ m ∈ moves, m.touches k = false := by
    obtain ⟨moves, hmoves, hquiet⟩ := hunedited
    refine ⟨moves, hmoves, fun m hm => ?_⟩
    by_contra htouch
    have hedit := Move.isEdit_of_touches (Bool.not_eq_false _ ▸ htouch)
    rw [hquiet m hm] at hedit
    cases hedit
  cases htarget : k.target with
  | dom =>
    obtain ⟨moves, hmoves, hspare⟩ := (follows_apply he s).moves
    exact .inl ⟨moves, hmoves, fun m hm => hspare m hm k htarget⟩
  | ssr =>
    cases e with
    | resume i =>
      cases hs : s.stage? i with
      | none =>
        have hnone : s.tasks[i]? = none := Option.map_eq_none_iff.1 hs
        have hsame : s.apply (.resume i) = s := by simp only [apply, resume, hnone]
        exact .inl ⟨[], congrArg Session.bench hsame, by simp⟩
      | some old =>
        cases hanswers : old.answers with
        | false =>
          left
          change ∃ moves, (s.resume i).bench = _ ∧ _
          rw [resume_eq hs]
          exact huntouched (unedited_resumeFrom i hanswers)
        | true =>
          refine .inr ⟨rfl, i, old, rfl, hs, hanswers, ?_⟩
          rw [resume_eq hs]
          exact onlyEmptied_resumeFrom i htarget hanswers (h.fits hs)
    | cancel i =>
      left
      change ∃ moves, (s.cancel i).bench = _ ∧ _
      rcases s.bench_cancel i with hbench | ⟨n, hbench⟩
      · exact ⟨[], hbench, by simp⟩
      · exact ⟨[.cancel n], hbench, by simp [Move.touches]⟩
    | resolve id importer target =>
      obtain ⟨resolver, journal, happly⟩ := apply_resolve s id importer target
      rw [happly]
      exact .inl ⟨[], rfl, by simp⟩
    | close => cases he
    | edit m => cases he
    | _ => exact .inl ⟨[], rfl, by simp⟩

/-- In a run of events, a task that answers to a change has emptied a slot after a ticket was
issued. -/
def EmptiedSince (start : Session) (events : List Event) (k : Key) (t : Nat) : Prop :=
  ∃ ran j rest old, events = ran ++ .resume j :: rest ∧
    (start.run ran).stage? j = some old ∧ old.answers ∧
    t < (start.run ran).bench.cache.nextTicket ∧
    (start.run ran).bench.cache.content? k ≠ none ∧
    ((start.run ran).resume j).bench.cache.content? k = none

/-- What a run has emptied, it has emptied as a part of any longer one. -/
theorem EmptiedSince.append {t : Nat} (h : EmptiedSince start events k t) (more : List Event) :
    EmptiedSince start (events ++ more) k t := by
  obtain ⟨ran, j, rest, old, rfl, hrest⟩ := h
  exact ⟨ran, j, rest ++ more, old, by simp, hrest⟩

/-- Tickets of a slot are lost only by an answer to a change that has emptied it, and only of the
server's slots. -/
theorem ordered_unless_emptied (hbench : start.bench = {}) (htasks : start.tasks = [])
    (he : ∀ e ∈ events, e.isInside) (k : Key) :
    Ordered (fun t => k.target = .ssr ∧ EmptiedSince start events k t) k
      (start.run events).bench := by
  induction events using List.reverseRecOn with
  | nil =>
    change Ordered _ k start.bench
    rw [hbench]
    exact ordered_empty _ _
  | append_singleton events e ih =>
    rw [List.forall_mem_append, List.forall_mem_singleton] at he
    have hattended : Attended (start.run events) :=
      attended_run (attended_start htasks) fun e hmem => Event.putsNothing_of_isInside (he.1 e hmem)
    have hw := sound_events hbench events
    have hbefore := (ih he.1).mono fun hlost => hlost.imp_right (·.append [e])
    rw [run_append]
    change Ordered _ k ((start.run events).apply e).bench
    rcases spared_or_onlyEmptied hattended he.2 k with ⟨moves, hmoves, hspare⟩ | hemptied
    · rw [hmoves]
      exact ordered_run hw hspare hbefore
    · obtain ⟨htarget, j, old, rfl, hs, hanswers, hempties⟩ := hemptied
      change Ordered _ k ((start.run events).resume j).bench
      rcases hempties.slot with ⟨moves, hmoves, hspare⟩ | hvacant
      · rw [hmoves]
        exact ordered_run hw hspare hbefore
      · -- A slot that was vacant before has lost its tickets before.
        by_cases hfree : (start.run events).bench.cache.content? k = none
        · obtain ⟨moves, hmoves⟩ := bench_apply (start.run events) (.resume j)
          have hannounced {t : Nat} {a : Announcement}
              (ha : (start.run events).bench.cache.announcement? t = some a) :
              ((start.run events).resume j).bench.cache.announcement? t = some a := by
            change ((start.run events).apply (.resume j)).bench.cache.announcement? t = some a
            rw [hmoves]
            exact announcement?_run hw ha moves
          exact hbefore.stay hfree hvacant hempties.calls hannounced
        · -- Calls for the slot are as they were, so their tickets were issued before.
          have hlost {t : Nat} (hissued : t < (start.run events).bench.cache.nextTicket) :
              EmptiedSince start (events ++ [.resume j]) k t :=
            ⟨events, j, [], old, rfl, hs, hanswers, hissued, hfree, hvacant⟩
          refine ordered_of_vacant hvacant ?_ ?_
          · intro l t call d hcall hslot hphase
            exact ⟨htarget, hlost (hw.computingIssued (hempties.calls hcall hslot) hphase)⟩
          · intro l t call hcall hslot hphase
            exact .inl ⟨htarget, hlost (hw.waitingIssued (hempties.calls hcall hslot) hphase)⟩

end Session

end HotComponents
