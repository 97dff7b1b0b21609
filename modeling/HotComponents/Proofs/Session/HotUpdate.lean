import HotComponents.Proofs.Cache.Mirror
import HotComponents.Proofs.Session.Change

/-!
# Which changes reach the cache

A change of a file is to reach every record of the browser's that was made from the file: the file's
own and those that depend on it. The answer to the change makes these records anew, but it passes by
a slot that is pending when it looks there. If the compute under way was begun before the change,
its record is stored all the same, and the change has not reached it.

* `owing_apply`, `owing_run`: what becomes of a slot that an answer owes;
* `change_reaches_cache_unless_passed_by`: a change reaches a record exactly if its slot is not
  passed by in this way.
-/

namespace HotComponents

/-- Everyone who waits is given a record. -/
def Announcement.isRecord : Announcement → Bool
  | record _ => true
  | _ => false

theorem Cache.pending_of_unseen {c : Cache} {k : Key} (h : c.peek k = none)
    (hcurrent : (c.current? k).isSome) : ∃ t d, c.content? k = some (.pending t d) := by
  unfold peek at h
  unfold current? at hcurrent
  cases hcontent : c.content? k with
  | none =>
    rw [hcontent] at hcurrent
    cases hcurrent
  | some content =>
    -- A ready slot is seen, so only a pending one can hide what is current.
    cases content with
    | ready f =>
      rw [hcontent] at h
      cases h
    | pending t d => exact ⟨t, d, rfl⟩

namespace Session

open Workbench

variable {s s' : Session} {i n first : Nat} {k : Key} {e : Event}

/-! ## Runs of a session, seen from one slot -/

/-- What is known of a whole run of events is known of its beginning. -/
theorem onlySucceeds_beginning {w : Workbench} (hw : Sound s.bench) {events : List Event}
    (h : OnlySucceeds w (s.run events).bench) : OnlySucceeds w s.bench := by
  obtain ⟨moves, hbench⟩ := bench_run s events
  rw [hbench] at h
  exact onlySucceeds_of_run hw h

theorem carries_apply (hk : k.target = .dom) (hw : Sound s.bench) (he : e.isInside)
    (hok : OnlySucceeds s.bench (s.apply e).bench) : Carries k s.bench (s.apply e).bench :=
  (follows_apply he s).carries hk hw hok

theorem carries_events (hk : k.target = .dom) (hw : Sound s.bench) {events : List Event}
    (hinside : ∀ e ∈ events, e.isInside) (hok : OnlySucceeds s.bench (s.run events).bench) :
    Carries k s.bench (s.run events).bench := by
  induction events generalizing s with
  | nil => exact carries_refl hw k
  | cons e events ih =>
    rw [List.forall_mem_cons] at hinside
    have hfollows := follows_apply hinside.1 s
    have hw' := hfollows.sound hw
    have hfirst := hfollows.carries hk hw (onlySucceeds_beginning hw' hok)
    exact hfirst.trans (ih hw' hinside.2 (hfollows.onlySucceeds_later hw hok))

/-! ## Slots that are owed -/

/-- An answer is under way that owes the slot of a key, and what its calls have brought about since
it began is known. -/
structure Owing (n first : Nat) (i : Nat) (k : Key) (s : Session) : Prop where
  sound : Sound s.bench
  current : (s.bench.cache.current? k).isSome
  renews : Renews n first k s.bench
  made : first ≤ s.bench.calls.length
  linked : Linked first i s
  owes : ∃ stage, s.stage? i = some stage ∧ stage.owes k

/-- Where an answer goes on to owe a slot, all else that is known of it is carried along. -/
theorem Owing.carry (h : Owing n first i k s) (hcarries : Carries k s.bench s'.bench)
    (hlinked : Linked first i s') (howes : ∃ stage, s'.stage? i = some stage ∧ stage.owes k) :
    Owing n first i k s' where
  sound := hcarries.sound
  current := hcarries.current h.current
  renews := hcarries.renews h.renews
  made := Nat.le_trans h.made hcarries.length_le
  linked := hlinked
  owes := howes

theorem linked_of_stage (hcarries : Carries k s.bench s'.bench) (hlinked : Linked first i s)
    {u : Update} {component : FilePath} {call : Nat} {making making' : Option Making}
    (hs : s.stage? i = some (.updating u component call making))
    (hs' : s'.stage? i = some (.updating u component call making')) : Linked first i s' := by
  obtain ⟨hfirst, c, hcall, hkey⟩ := hlinked _ _ _ _ hs
  obtain ⟨c', hcall', hkey'⟩ := hcarries.calls hcall
  intro u' component' call' making'' hstage
  cases hs'.symm.trans hstage
  exact ⟨hfirst, c', hcall', hkey'.trans hkey⟩

theorem owes_eq {stage : Stage} (hs : s.stage? i = some stage) (hbegun : stage.hasBegun) :
    s.owes i k = stage.owes k := by
  unfold owes
  rw [hs]
  cases stage with
  | fresh job => cases hbegun
  | _ => rfl

/-- A call that answers with a new record and the one it replaced has returned them. -/
theorem recomputed_of_answer {w : Workbench} {call : Nat} {previous : Option Record} {r : Record}
    {c : Call} (h : w.answer? call = some (.recomputed previous r))
    (hcall : w.calls[call]? = some c) : ∃ d f, c.phase = .returned (.recomputed d f) := by
  simp only [answer?, hcall, Option.bind_some, Call.answer?] at h
  split at h
  · next a hphase =>
    cases a with
    | recomputed d f => exact ⟨d, f, hphase⟩
    | _ => cases h
  · cases h

/-- A turn of an answer that owes a slot: it goes on to owe it, or the slot is renewed, or the
answer fails, or it lets the slot go while that is pending. -/
theorem owing_resume (hk : k.target = .dom) (h : Owing n first i k s)
    (hok : OnlySucceeds s.bench (s.resume i).bench) :
    Owing n first i k (s.resume i) ∨ Renewed n k (s.resume i).bench ∨
      (∃ stage, (s.resume i).stage? i = some stage ∧ stage.IsLost) ∨
      (∃ t, s.bench.cache.isPending k t) ∧ (s.resume i).owes i k = false := by
  have hcarries := (follows_resume s i).carries hk h.sound hok
  obtain ⟨stage, hs, howes⟩ := h.owes
  cases stage with
  | updating u component call making =>
    have hanswered := answered_resume hs
    generalize s.resume i = s' at hok hcarries hanswered ⊢
    cases hanswered with
    | waits hstage =>
      -- It is still at the component it was at, so it owes what it owed.
      exact .inl (h.carry hcarries (linked_of_stage hcarries h.linked hs hstage) ⟨_, hstage, howes⟩)
    | fails hstage => exact .inr (.inr (.inl ⟨_, hstage, .inr ⟨_, rfl⟩⟩))
    | @lands s₁ outcome previous r hbench hsome hanswer =>
      -- The new record has landed in `s₁`; from there the answer goes on to the rest.
      have hrest : Follows (some i) s₁ (s₁.reconcile i u component previous r) :=
        follows_reconcile _ _ _ _
      have hw₁ : Sound s₁.bench := hbench ▸ sound_step h.sound (step_apply _ _)
      have hok₁ := hrest.onlySucceeds hw₁ hok
      have hmid : Carries k s.bench s₁.bench := by
        rw [hbench] at hok₁ ⊢
        exact carries_step h.sound (step_apply _ _) rfl hok₁
      have hlast : Carries k s₁.bench (s₁.reconcile i u component previous r).bench := by
        refine hrest.carries hk hw₁ ?_
        rw [hbench]
        exact onlySucceeds_later h.sound [.finish call outcome] hok
      have hrenews := hmid.renews h.renews
      by_cases hown : Key.same ⟨component, .dom⟩ k
      · -- The slot is that of the component: the call that has returned has renewed it.
        obtain ⟨hfirst, c, hcall, hkey⟩ := h.linked _ _ _ _ hs
        obtain ⟨c', hcall', hkey'⟩ := hmid.calls hcall
        obtain ⟨d, f, hphase⟩ := recomputed_of_answer hanswer hcall'
        have hslot : c'.key.slot = k.slot := by
          rw [hkey', hkey]
          exact Key.same_iff.1 hown
        exact .inr (.inl (hlast.renewed hrenews.issued
          (hrenews.recomputed hfirst hcall' hslot hphase)))
      · -- The slot is among the rest, and the answer goes through that in the same turn.
        have hitems : u.rest.any (·.concerns k) := by
          simpa [Stage.owes, hown] using howes
        obtain ⟨s₂, htrims, hdrain⟩ := reconcile_eq s₁ i u component previous r
        rw [← htrims.stage?] at hsome
        rw [hdrain] at hcarries hlast ⊢
        obtain ⟨stage, hstage, hbegun, hall⟩ := drain_owes hsome u.file _ u.rest
        by_cases hstill : stage.owes k
        · have hmade : first ≤ s₂.bench.calls.length := by
            rw [htrims.calls]
            exact Nat.le_trans h.made hmid.length_le
          exact .inl (h.carry hcarries (linked_drain hsome hmade _ _ _) ⟨stage, hstage, hstill⟩)
        · -- The slot is skipped, so it is pending: from before this turn, or under a new ticket.
          have hunseen := (hall k hk hitems).resolve_left hstill
          rw [htrims.peek hk] at hunseen
          obtain ⟨t, d, hp⟩ := Cache.pending_of_unseen hunseen (hmid.current h.current)
          rcases hmid.pending hp with hold | hnew
          · refine .inr (.inr (.inr ⟨⟨t, Cache.isPending_iff.2 ⟨d, hold⟩⟩, ?_⟩))
            rw [owes_eq hstage hbegun]
            simpa using hstill
          · have hrenewed : Renewed n k s₁.bench :=
              ⟨t, by rw [Cache.ticket?, hp]; rfl, Nat.le_trans h.renews.issued hnew⟩
            exact .inr (.inl (hlast.renewed hrenews.issued hrenewed))
  | _ => cases howes

/-! ## Runs -/

/-- In a run of events, the answer of a task lets a slot go while that is pending under a ticket. -/
def passesBy (s : Session) (i : Nat) (k : Key) (t : Nat) : List Event → Bool
  | [] => false
  | e :: events =>
    (s.owes i k && !(s.apply e).owes i k && s.bench.cache.isPending k t) ||
      (s.apply e).passesBy i k t events

/-- What one event makes of a slot that an answer owes. -/
theorem owing_apply (hk : k.target = .dom) (h : Owing n first i k s) (he : e.isInside)
    (hok : OnlySucceeds s.bench (s.apply e).bench) :
    Owing n first i k (s.apply e) ∨ Renewed n k (s.apply e).bench ∨
      (∃ stage, (s.apply e).stage? i = some stage ∧ stage.IsLost) ∨
      (∃ t, s.bench.cache.isPending k t) ∧ (s.apply e).owes i k = false := by
  obtain ⟨stage, hs, howes⟩ := h.owes
  by_cases hi : e.actor? = some i
  · cases e with
    | resume j =>
      cases hi
      exact owing_resume hk h hok
    | cancel j =>
      cases hi
      refine .inr (.inr (.inl ⟨_, ?_, .inl rfl⟩))
      cases stage with
      | updating u component call making =>
        obtain ⟨t, ht, hstage⟩ := Option.map_eq_some_iff.1 hs
        have hsome : ((s.act (.cancel call)).stage? i).isSome := Option.isSome_of_eq_some hs
        simp only [apply, cancel, ht, hstage, stageCall?, Option.elim_some]
        exact stage?_setStage_self hsome _
      | _ => cases howes
    | _ => cases hi
  · -- Another task moves; the answer stays where it is.
    have hcarries := carries_apply hk h.sound he hok
    have hstage := (follows_apply he s).others hi hs
    cases stage with
    | updating u component call making =>
      exact .inl (h.carry hcarries (linked_of_stage hcarries h.linked hs hstage)
        ⟨_, hstage, howes⟩)
    | _ => cases howes

/-- What a run makes of a slot that an answer owes: unless it still does or has come to nothing, the
slot is renewed in the end, or goes by the ticket under which it was passed by. -/
theorem owing_run (hk : k.target = .dom) (h : Owing n first i k s) {events : List Event}
    (hinside : ∀ e ∈ events, e.isInside) (hok : OnlySucceeds s.bench (s.run events).bench) :
    (∃ stage, (s.run events).stage? i = some stage ∧ (stage.owes k ∨ stage.IsLost)) ∨
      Renewed n k (s.run events).bench ∨
      ∃ t, s.bench.cache.isPending k t ∧ s.passesBy i k t events ∧
        (s.run events).bench.cache.ticket? k = some t := by
  induction events generalizing s with
  | nil =>
    obtain ⟨stage, hs, howes⟩ := h.owes
    exact .inl ⟨stage, hs, .inl howes⟩
  | cons e events ih =>
    rw [List.forall_mem_cons] at hinside
    have hfollows := follows_apply hinside.1 s
    have hw' := hfollows.sound h.sound
    have hok' := onlySucceeds_beginning (s := s.apply e) hw' hok
    have hfirst := carries_apply hk h.sound hinside.1 hok'
    have hrest := carries_events hk hw' hinside.2 (hfollows.onlySucceeds_later h.sound hok)
    have hissued := (hfirst.renews h.renews).issued
    rcases owing_apply hk h hinside.1 hok' with
      howing | hrenewed | ⟨stage, hstage, hlost⟩ | ⟨⟨t, hp⟩, hgone⟩
    · rcases ih howing hinside.2 (hfollows.onlySucceeds_later h.sound hok) with
        hstill | hrenewed | ⟨t, hp, hpasses, hticket⟩
      · exact .inl hstill
      · exact .inr (.inl hrenewed)
      · -- The ticket was there at the beginning already, or is a new one.
        obtain ⟨d, hd⟩ := Cache.isPending_iff.1 hp
        rcases hfirst.pending hd with hold | hnew
        · refine .inr (.inr ⟨t, Cache.isPending_iff.2 ⟨d, hold⟩, ?_, hticket⟩)
          simp only [passesBy, hpasses, Bool.or_true]
        · exact .inr (.inl ⟨t, hticket, Nat.le_trans h.renews.issued hnew⟩)
    · exact .inr (.inl (hrest.renewed hissued hrenewed))
    · exact .inl ⟨stage, ended_run hstage hlost.hasEnded events, .inr hlost⟩
    · -- The slot is let go here; whoever holds its ticket redeems it, or a newer one is taken.
      obtain ⟨stage, hs, howes⟩ := h.owes
      have howed : s.owes i k := by
        cases stage with
        | updating => rwa [owes_eq hs rfl]
        | _ => cases howes
      have hpasses : s.passesBy i k t (e :: events) := by
        simp only [passesBy, howed, hgone, hp, Bool.not_false, Bool.and_true, Bool.true_or]
      obtain ⟨d, hd⟩ := Cache.isPending_iff.1 hp
      have hticket : s.bench.cache.ticket? k = some t := by
        rw [Cache.ticket?, hd]
        rfl
      rcases (hfirst.trans hrest).ticket with hsame | ⟨u, hu, hnew⟩
      · exact .inr (.inr ⟨t, hp, hpasses, hsame.trans hticket⟩)
      · exact .inr (.inl ⟨u, hu, Nat.le_trans h.renews.issued hnew⟩)

/-! ## From the first turn to the end -/

/-- An answer owes the slots it is to make anew: the file's own and those that depend on it. -/
theorem owes_of_concerned {file : FilePath} {timestamp : Nat} {f : Filed}
    (hmirrors : s.bench.cache.Mirrors) (hs : s.stage? i = some (.fresh (.change file timestamp)))
    (hk : k.target = .dom) (hcurrent : s.bench.cache.current? k = some f)
    (hconcerned : k.file.components = file.components ∨ f.record.uses file) : s.owes i k := by
  have hown (h : k.file.components = file.components) : Key.same ⟨file, .dom⟩ k := by
    refine Key.same_iff.2 (Prod.ext h.symm ?_)
    exact hk.symm
  simp only [owes, hs, Bool.or_eq_true]
  by_cases hfile : k.file.components = file.components
  · exact .inl (hown hfile)
  · have huses := hconcerned.resolve_left hfile
    obtain ⟨l, hl, hslot⟩ :=
      (Cache.mem_dependents hmirrors).2 ⟨f, hcurrent, huses, Ne.symm hfile⟩
    exact .inr (List.any_eq_true.2 ⟨l, hl, Key.same_iff.2 hslot⟩)

/-- When no call computes, a slot that goes by a ticket holds the record of that ticket. -/
theorem ready_of_ticket? {w : Workbench} {t : Nat} (hw : Sound w)
    (hidle : ∀ j, w.isComputing j = false) (ht : w.cache.ticket? k = some t) :
    ∃ r, w.cache.content? k = some (.ready ⟨r, some t⟩) := by
  unfold Cache.ticket? at ht
  cases hcontent : w.cache.content? k with
  | none =>
    rw [hcontent] at ht
    cases ht
  | some content =>
    rw [hcontent] at ht
    cases content with
    | ready f =>
      obtain ⟨r, ticket?⟩ := f
      have heq : ticket? = some t := ht
      exact ⟨r, by rw [heq]⟩
    -- A pending slot has a leader, which would be computing.
    | pending u d =>
      obtain ⟨j, call, hcall, _, hphase⟩ := hw.led hcontent
      have hbusy := hidle j
      simp [isComputing, phase?, hcall, hphase] at hbusy

/-- What becomes of a slot that an answer is to make anew: in the end it goes by a ticket that was
issued since, or by the one under which it was pending all the while and was passed by. -/
theorem ticket?_of_answer {file : FilePath} {timestamp : Nat} {outcome : UpdateOutcome}
    {events : List Event} (hw : Sound s.bench) (hhot : s.options.hot)
    (hs : s.stage? i = some (.fresh (.change file timestamp)))
    (hnew : s.isStale file timestamp = false) (hk : k.target = .dom)
    (hcurrent : (s.bench.cache.current? k).isSome) (howes : s.owes i k)
    (hinside : ∀ e ∈ events, e.isInside)
    (hreturned : (s.run (.resume i :: events)).stage? i = some (.done (.updated outcome)))
    (hok : OnlySucceeds s.bench (s.run (.resume i :: events)).bench) :
    Renewed s.bench.cache.nextTicket k (s.run (.resume i :: events)).bench ∨
      ∃ t, s.bench.cache.isPending k t ∧ s.passesBy i k t (.resume i :: events) ∧
        (s.run (.resume i :: events)).bench.cache.ticket? k = some t := by
  obtain ⟨hlinked, stage, hstage, hbegun, hall⟩ := firstTurn hs hhot hnew
  have hfollows := follows_resume s i
  have hw' := hfollows.sound hw
  have hok' := onlySucceeds_beginning (s := s.resume i) hw' hok
  have hfirst := hfollows.carries hk hw hok'
  have hlater := hfollows.onlySucceeds_later hw hok
  have hrest := carries_events hk hw' hinside hlater
  by_cases hstill : stage.owes k
  · have howing : Owing s.bench.cache.nextTicket s.bench.calls.length i k (s.resume i) := {
      sound := hw'
      current := hfirst.current hcurrent
      renews := hfirst.renews (renews_here s.bench k)
      made := hfirst.length_le
      linked := hlinked
      owes := ⟨stage, hstage, hstill⟩ }
    rcases owing_run hk howing hinside hlater with
      ⟨last, hlast, hdebt⟩ | hrenewed | ⟨t, hp, hpasses, hticket⟩
    · -- An answer that has returned owes nothing and has not failed.
      cases hlast.symm.trans hreturned
      rcases hdebt with hdebt | hlost | ⟨_, hlost⟩
      · cases hdebt
      · cases hlost
      · cases hlost
    · exact .inl hrenewed
    · obtain ⟨d, hd⟩ := Cache.isPending_iff.1 hp
      rcases hfirst.pending hd with hold | hissued
      · refine .inr ⟨t, Cache.isPending_iff.2 ⟨d, hold⟩, ?_, hticket⟩
        rw [passesBy, Bool.or_eq_true]
        exact .inr hpasses
      · exact .inl ⟨t, hticket, hissued⟩
  · -- The slot is let go in the first turn already.
    obtain ⟨t, d, hp⟩ :=
      Cache.pending_of_unseen ((hall k hk howes).resolve_left hstill) hcurrent
    have hpending : s.bench.cache.isPending k t := Cache.isPending_iff.2 ⟨d, hp⟩
    have hgone : (s.apply (.resume i)).owes i k = false := by
      rw [apply, owes_eq hstage hbegun]
      simpa using hstill
    rcases (hfirst.trans hrest).ticket with hsame | hrenewed
    · refine .inr ⟨t, hpending, ?_, hsame.trans ?_⟩
      · simp only [passesBy, howes, hgone, hpending, Bool.not_false, Bool.and_true, Bool.true_or]
      · rw [Cache.ticket?, hp]
        rfl
    · exact .inl hrenewed

/-- Which changes reach the cache. In a session with hot updates, let a task begin to answer to a
change of a file that is not stale, and take a slot of the browser's with a current record, stored
or displaced by a compute under way, that is the file's own or depends on the file. If no compute
fails or is given up from then on, then once the task has returned its modules and no call computes,
the slot holds a record that was computed under some ticket. The ticket was issued after the answer
had begun, so that the compute saw the change, exactly if the slot was not passed by: unless it was
pending under this very ticket when the answer began, and still was when the answer let it go. -/
theorem change_reaches_cache_unless_passed_by (start : Session) (before after : List Event)
    (i : Nat) (file : FilePath) (timestamp : Nat) (outcome : UpdateOutcome) (k : Key) (f : Filed) :
    let s := start.run before
    let s' := s.run (.resume i :: after)
    start.bench = {} → (∀ e ∈ after, e.isInside) → s.options.hot →
    s.stage? i = some (.fresh (.change file timestamp)) → s.isStale file timestamp = false →
    k.target = .dom → s.bench.cache.current? k = some f →
    (k.file.components = file.components ∨ f.record.uses file) →
    s'.stage? i = some (.done (.updated outcome)) →
    OnlySucceeds s.bench s'.bench → (∀ j, s'.bench.isComputing j = false) →
    ∃ r t, s'.bench.cache.content? k = some (.ready ⟨r, some t⟩) ∧
      (s.bench.cache.nextTicket ≤ t ↔
        ¬ (s.bench.cache.isPending k t ∧ s.passesBy i k t (.resume i :: after))) := by
  intro s s' hstart hinside hhot hs hnew hk hcurrent hconcerned hreturned hok hidle
  -- Whatever happened before, the workbench is sound and its graph mirrors its records.
  obtain ⟨moves, hbench⟩ := bench_run start before
  rw [hstart] at hbench
  have hw : Sound s.bench := hbench ▸ sound_after moves
  have hmirrors : s.bench.cache.Mirrors := hbench ▸ mirrors_after moves
  have howes := owes_of_concerned hmirrors hs hk hcurrent hconcerned
  have hold {t : Nat} (hp : s.bench.cache.isPending k t) : t < s.bench.cache.nextTicket := by
    obtain ⟨d, hd⟩ := Cache.isPending_iff.1 hp
    exact hw.pendingIssued hd
  obtain ⟨more, hbench'⟩ := bench_run s (.resume i :: after)
  have hw' : Sound s'.bench := by
    rw [hbench']
    exact sound_run hw more
  rcases ticket?_of_answer hw hhot hs hnew hk (Option.isSome_of_eq_some hcurrent) howes hinside
      hreturned hok with
    ⟨t, ht, hissued⟩ | ⟨t, hp, hpasses, ht⟩
  · obtain ⟨r, hready⟩ := ready_of_ticket? hw' hidle ht
    refine ⟨r, t, hready, fun _ hpassed => ?_, fun _ => hissued⟩
    exact absurd (hold hpassed.1) (Nat.not_lt_of_le hissued)
  · obtain ⟨r, hready⟩ := ready_of_ticket? hw' hidle ht
    refine ⟨r, t, hready, fun hissued => ?_, fun hnot => absurd ⟨hp, hpasses⟩ hnot⟩
    exact absurd (hold hp) (Nat.not_lt_of_le hissued)

/-! ## Two changes of one component in quick succession -/

theorem onlySucceeds_of_announced {w w' : Workbench}
    (h : w'.cache.announced.all fun entry => entry.2.isRecord) : OnlySucceeds w w' := by
  intro t a ha _
  obtain ⟨⟨u, a'⟩, hfound, rfl⟩ := Option.map_eq_some_iff.1 ha
  have hrecord := List.all_eq_true.1 h _ (List.mem_of_find?_eq_some hfound)
  cases a' with
  | record f => exact ⟨f, rfl⟩
  | _ => cases hrecord

theorem isComputing_of_ended {w : Workbench} (h : w.calls.all Call.hasEnded) (j : Nat) :
    w.isComputing j = false := by
  unfold isComputing phase?
  cases hcall : w.calls[j]? with
  | none => rfl
  | some call =>
    have hended := List.all_eq_true.1 h call (List.mem_of_getElem? hcall)
    cases hphase : call.phase <;> simp [Call.hasEnded, hphase] at hended ⊢

end Session

namespace Sample

/-- A component. -/
def component : FilePath := ⟨"/app/A.svelte"⟩

/-- The slot of its record for the browser. -/
def slot : Key := ⟨component, .dom⟩

/-- A session whose first compile ends at once. -/
def session : Session where
  options := { root := ⟨"/app"⟩ }
  compiler := { kind := .driven, queue := [.ok { js := ⟨"one", none⟩ }] }

/-- The component is written with a text. -/
def written (text : String) : Session.Event := .disk (Disk.write {} component text.toUTF8.toList)

/-- The component is loaded, and changes. -/
def loaded : List Session.Event :=
  [.start "main" (.transform component.text "v1" .dom), .resume 0, written "v2",
    .start "first" (.change component 1)]

/-- It is being compiled again, and changes once more. -/
def recompiling : List Session.Event :=
  [.resume 1, written "v3", .start "second" (.change component 2)]

/-- That compile ends. -/
def landed : List Session.Event := [.deliver 1 (.ok { js := ⟨"two", none⟩ }), .resume 1]

end Sample

namespace Session

open Workbench

/-- The first change reaches the cache. The second one comes while the component is compiled for the
first: its answer passes the slot by, and the record of the first stays. -/
theorem change_reaches_cache_unless_passed_by_succession :
    let first := Sample.session.run Sample.loaded
    let second := Sample.session.run (Sample.loaded ++ .resume 1 :: Sample.recompiling)
    let last := second.run (.resume 2 :: Sample.landed)
    first.stage? 1 = some (.fresh (.change Sample.component 1)) ∧
    second.stage? 2 = some (.fresh (.change Sample.component 2)) ∧
    last.stage? 2 = some (.done (.updated .notLoaded)) ∧
    ∃ r t, last.bench.cache.content? Sample.slot = some (.ready ⟨r, some t⟩) ∧
      first.bench.cache.nextTicket ≤ t ∧ ¬ second.bench.cache.nextTicket ≤ t := by
  intro first second last
  have hlast :
      first.run (.resume 1 :: (Sample.recompiling ++ .resume 2 :: Sample.landed)) = last := by
    simp only [first, second, last, ← run_append, List.append_assoc, List.cons_append]
  have hfirst : first.stage? 1 = some (.fresh (.change Sample.component 1)) := by decide +kernel
  have hsecond : second.stage? 2 = some (.fresh (.change Sample.component 2)) := by decide +kernel
  have hended : last.stage? 2 = some (.done (.updated .notLoaded)) := by decide +kernel
  have hanswered : last.stage? 1 = some (.done (.updated (.affected ["/app/A.svelte"]))) := by
    decide +kernel
  have hok (w : Workbench) : OnlySucceeds w last.bench :=
    onlySucceeds_of_announced (by decide +kernel)
  have hidle : ∀ j, last.bench.isComputing j = false := isComputing_of_ended (by decide +kernel)
  obtain ⟨f₁, hcurrent₁⟩ := Option.isSome_iff_exists.1
    (show (first.bench.cache.current? Sample.slot).isSome by decide +kernel)
  obtain ⟨f₂, hcurrent₂⟩ := Option.isSome_iff_exists.1
    (show (second.bench.cache.current? Sample.slot).isSome by decide +kernel)
  have hreached := change_reaches_cache_unless_passed_by Sample.session
    Sample.loaded (Sample.recompiling ++ .resume 2 :: Sample.landed) 1 Sample.component 1
    (.affected ["/app/A.svelte"]) Sample.slot f₁ rfl (by decide +kernel) (by decide +kernel) hfirst
    (by decide +kernel) rfl hcurrent₁ (.inl rfl)
  rw [hlast] at hreached
  obtain ⟨r, t, hready, hreached⟩ := hreached hanswered (hok _) hidle
  obtain ⟨r', t', hready', hpassed⟩ := change_reaches_cache_unless_passed_by Sample.session
    (Sample.loaded ++ .resume 1 :: Sample.recompiling) Sample.landed 2 Sample.component 2 .notLoaded
    Sample.slot f₂ rfl (by decide +kernel) (by decide +kernel) hsecond (by decide +kernel) rfl
    hcurrent₂ (.inl rfl) hended (hok _) hidle
  -- Both are about the one record that is there in the end, which was computed under ticket 1.
  have hticket : last.bench.cache.ticket? Sample.slot = some 1 := by decide +kernel
  have ht : t = 1 := by
    rw [Cache.ticket?, hready] at hticket
    exact Option.some.inj hticket
  have ht' : t' = 1 := by
    rw [Cache.ticket?, hready'] at hticket
    exact Option.some.inj hticket
  subst ht ht'
  have hnone : first.bench.cache.isPending Sample.slot 1 = false := by decide +kernel
  refine ⟨hfirst, hsecond, hended, r, 1, hready, ?_, fun hnew => ?_⟩
  · refine hreached.2 fun h => ?_
    rw [hnone] at h
    cases h.1
  · exact hpassed.1 hnew ⟨by decide +kernel, by decide +kernel⟩

end Session

end HotComponents
