import HotComponents.Proofs.Session.Compiles

/-!
# What the browser's slots keep

A session that is neither closed nor changed from outside touches none of the browser's slots but to
store records in them. So a record that was served to the browser was stored, and its slot has a
current record from then on. While no other compile for the slot begins, that record stays the
current one, and whoever begins to wait meanwhile is told of nothing but computes that have come to
nothing.

* `moves_run`, `ordered_events`: what is known of the browser's slots and their tickets;
* `told_was_current_since`, `current_or_stored`: a record that a call is told was current or stored
  before;
* `unrivalled_of_stored`, `unrivalled_run`: a record stays while no compile begins behind it.
-/

namespace HotComponents

open ModuleId

namespace Session

open Workbench

variable {s start : Session} {i n first : Nat} {stage : Stage} {events : List Event} {e : Event}
  {k : Key} {f : Filed} {lost : Nat → Prop}

/-! ## Slots that are only stored in -/

/-- A run of such a session edits none of the browser's slots. -/
theorem moves_run (he : ∀ e ∈ events, e.isInside) :
    ∃ moves : List Move, (s.run events).bench = s.bench.run moves ∧ ∀ m ∈ moves, m.SparesDom := by
  induction events generalizing s with
  | nil => exact ⟨[], rfl, by simp⟩
  | cons e events ih =>
    rw [List.forall_mem_cons] at he
    obtain ⟨moves, hfirst, hspare⟩ := (follows_apply he.1 s).moves
    obtain ⟨more, hrest, hspare'⟩ := ih he.2 (s := s.apply e)
    refine ⟨moves ++ more, ?_, List.forall_mem_append.2 ⟨hspare, hspare'⟩⟩
    rw [Workbench.run_append, ← hfirst]
    exact hrest

/-- A browser's slot that has a current record keeps one. -/
theorem isSome_current?_events (hk : k.target = .dom) (hw : Sound s.bench)
    (he : ∀ e ∈ events, e.isInside) (hcurrent : (s.bench.cache.current? k).isSome) :
    ((s.run events).bench.cache.current? k).isSome := by
  obtain ⟨moves, hbench, hspare⟩ := moves_run he
  rw [hbench]
  exact isSome_current?_run hw (fun m hm => hspare m hm k hk) hcurrent

/-- No ticket of a browser's slot is lost. -/
theorem ordered_events (hk : k.target = .dom) (hw : Sound s.bench) (he : ∀ e ∈ events, e.isInside)
    (h : Ordered lost k s.bench) : Ordered lost k (s.run events).bench := by
  obtain ⟨moves, hbench, hspare⟩ := moves_run he
  rw [hbench]
  exact ordered_run hw (fun m hm => hspare m hm k hk) h

/-- The same from a new session on. -/
theorem ordered_start (hbench : start.bench = {}) (hk : k.target = .dom)
    (he : ∀ e ∈ events, e.isInside) :
    Ordered (fun _ => False) k (start.run events).bench := by
  have hw : Sound start.bench := hbench ▸ sound_empty
  have hnew : Ordered (fun _ => False) k start.bench := hbench ▸ ordered_empty _ _
  exact ordered_events hk hw he hnew

theorem Deed.sparesDom {after : Compiler} {w : Workbench} {m : Move} (hm : s.Deed after i w m) :
    m.SparesDom := by
  cases hm with
  | drop htarget => exact Move.sparesDom_invalidateKey htarget
  | _ => exact Move.sparesDom_of_not_edit rfl

/-- What holds of the workbench behind an event, if it is kept by the deeds of a task that is
resumed and by giving up a call. -/
theorem holds_inside {J : Workbench → Prop} (h : Attended s) (he : e.isInside) (hstart : J s.bench)
    (hcancel : ∀ {w : Workbench} {n : Nat}, J w → J (w.apply (.cancel n)))
    (hdeed : ∀ {j : Nat} {w : Workbench} {m : Move}, e = .resume j →
      s.Deeds (s.resume j).compiler j w → s.Deed (s.resume j).compiler j w m → J w →
      J (w.apply m)) : J (s.apply e).bench := by
  cases e with
  | resume i =>
    change J (s.resume i).bench
    rcases turned_resume h i with ⟨old, _, hturned⟩ | hsame
    · have hdeeds := deeds_turned hturned
      generalize (s.resume i).bench = w at hdeeds ⊢
      -- A turn is a chain of deeds, and each of them keeps the property.
      induction hdeeds with
      | start => exact hstart
      | next hbefore hm ih => exact hdeed rfl hbefore hm ih
    · rwa [hsame]
  | cancel i =>
    change J (s.cancel i).bench
    rcases s.bench_cancel i with hbench | ⟨n, hbench⟩
    · rwa [hbench]
    · rw [hbench]
      exact hcancel hstart
  | resolve id importer target =>
    obtain ⟨resolver, journal, happly⟩ := apply_resolve s id importer target
    rw [happly]
    exact hstart
  | close => cases he
  | edit m => cases he
  | _ => exact hstart

/-! ## Records that were stored -/

/-- At some point of a run the record is the current one of a slot. -/
def WasCurrent (start : Session) (events : List Event) (k : Key) (f : Filed) : Prop :=
  ∃ ran rest, events = ran ++ rest ∧ (start.run ran).bench.cache.current? k = some f

theorem WasCurrent.append (h : WasCurrent start events k f) (more : List Event) :
    WasCurrent start (events ++ more) k f := by
  obtain ⟨ran, rest, rfl, hcurrent⟩ := h
  exact ⟨ran, rest ++ more, List.append_assoc _ _ _, hcurrent⟩

/-- The record becomes the current one of a slot in an event. -/
def StoredIn (s : Session) (e : Event) (k : Key) (f : Filed) : Prop :=
  s.bench.cache.current? k ≠ some f ∧ (s.apply e).bench.cache.current? k = some f

/-- A record that was current in a run was so from the start, or was stored in the run. -/
theorem current_or_stored (h : WasCurrent start events k f) :
    start.bench.cache.current? k = some f ∨
      ∃ ran e rest, events = ran ++ e :: rest ∧ (start.run ran).StoredIn e k f := by
  obtain ⟨ran, rest, hevents, hcurrent⟩ := h
  induction ran using List.reverseRecOn generalizing rest with
  | nil => exact .inl hcurrent
  | append_singleton ran e ih =>
    rw [List.append_assoc] at hevents
    by_cases hbefore : (start.run ran).bench.cache.current? k = some f
    · exact ih _ hevents hbefore
    · rw [run_append] at hcurrent
      exact .inr ⟨ran, e, rest, hevents, hbefore, hcurrent⟩

theorem stored_of_wasCurrent (hbench : start.bench = {}) (h : WasCurrent start events k f) :
    ∃ ran e rest, events = ran ++ e :: rest ∧ (start.run ran).StoredIn e k f := by
  refine (current_or_stored h).resolve_left ?_
  rw [hbench]
  simp [Cache.current?, Cache.content?]

/-- A call of the task's has ended. -/
def Spent (s : Session) (i : Nat) (w : Workbench) : Prop :=
  ∃ n call, s.Owns i n ∧ w.calls[n]? = some call ∧ call.hasEnded

/-- When a compute ends in a record, its call is the only one of the task's. -/
theorem Deed.alone_of_landed {after : Compiler} {w : Workbench} {r : Record}
    (hm : s.Deed after i w (.finish n (.ok r))) : s.Owns i n ∧ s.Alone i n w := by
  generalize hmove : Move.finish n (.ok r) = m at hm
  cases hm with
  | compiled hown halone =>
    obtain ⟨rfl, -⟩ := Move.finish.inj hmove
    exact ⟨hown, halone⟩
  | unread => cases (Move.finish.inj hmove).2
  | _ => cases hmove

/-- A task whose call has ended ends no compile in the rest of its turn. -/
theorem Spent.not_landed {after : Compiler} {w : Workbench} {t : Nat} {call : Call}
    {d : Option Filed} {r : Record} (h : s.Spent i w) (hcall : w.calls[n]? = some call)
    (hphase : call.phase = .computing t d) : ¬ s.Deed after i w (.finish n (.ok r)) := by
  intro hm
  obtain ⟨l, other, hown, hother, hended⟩ := h
  obtain rfl := hm.alone_of_landed.2 l hown (List.getElem?_eq_some_iff.1 hother).1
  cases hother.symm.trans hcall
  simp [Call.hasEnded, hphase] at hended

theorem Spent.step {w : Workbench} {m : Move} (h : s.Spent i w) : s.Spent i (w.apply m) := by
  obtain ⟨n, call, hown, hcall, hended⟩ := h
  exact ⟨n, call, hown, ended_step (step_apply w m) hcall hended, hended⟩

/-- The calls that wait for a browser's slot are told records that were current by a point of a run,
or are current now. -/
def ToldCurrent (start : Session) (events : List Event) (w : Workbench) : Prop :=
  Hears (fun _ call a => call.key.target = .dom → ∀ f, a = .record f →
    WasCurrent start events call.key f ∨ w.cache.current? call.key = some f) w

/-- What is known in a turn: a browser's slot has changed only if a compile of the task's has ended,
and calls that wait are told records that were current before the turn or are current now. -/
structure Telling (start : Session) (events : List Event) (i : Nat) (w : Workbench) : Prop where
  sound : Sound w
  ordered : ∀ {k : Key}, k.target = .dom → Ordered (fun _ => False) k w
  changed : (start.run events).Spent i w ∨ ∀ k : Key, k.target = .dom →
    w.cache.current? k = (start.run events).bench.cache.current? k
  told : ToldCurrent start events w

theorem telling_deed {after : Compiler} {w : Workbench} {m : Move}
    (h : Telling start events i w) (hm : (start.run events).Deed after i w m) :
    Telling start events i (w.apply m) := by
  have hstep := step_apply w m
  have huntouched {k : Key} (hk : k.target = .dom) :=
    current?_apply_of_untouched h.sound (hm.sparesDom k hk)
  have hended {j t : Nat} {leader : Call} {d : Option Filed} {r : Record}
      (hmove : m = .finish j (.ok r)) (hleader : w.calls[j]? = some leader)
      (hleads : leader.phase = .computing t d) :
      (start.run events).Spent i (w.apply m) ∧ ¬ (start.run events).Spent i w := by
    subst hmove
    constructor
    · exact ⟨j, _, hm.alone_of_landed.1, (apply_finish_of_computing hleader hleads r).1, rfl⟩
    · exact fun hspent => hspent.not_landed hleader hleads hm
  -- A slot that changes now has not changed before in this turn.
  have hkept {k : Key} (hk : k.target = .dom) {f : Filed} (hf : w.cache.current? k = some f) :
      WasCurrent start events k f ∨ (w.apply m).cache.current? k = some f := by
    rcases huntouched hk with hsame | ⟨j, t, leader, d, r, hmove, hleader, _, hleads, _, _⟩
    · exact .inr (hsame.trans hf)
    · have hbefore := h.changed.resolve_left (hended hmove hleader hleads).2
      rw [hbefore k hk] at hf
      exact .inl ⟨events, [], by simp, hf⟩
  constructor
  · exact sound_step h.sound hstep
  · intro k hk
    exact ordered_apply h.sound (hm.sparesDom k hk) (h.ordered hk)
  · by_cases hspent : (start.run events).Spent i (w.apply m)
    · exact .inl hspent
    · right
      intro k hk
      have hbefore := h.changed.resolve_left fun hspent' => hspent hspent'.step
      rcases huntouched hk with hsame | ⟨j, t, leader, d, r, hmove, hleader, _, hleads, _, _⟩
      · exact hsame.trans (hbefore k hk)
      · exact absurd (hended hmove hleader hleads).1 hspent
  · have htold : Hears (fun _ call a => call.key.target = .dom → ∀ f, a = .record f →
        WasCurrent start events call.key f ∨ (w.apply m).cache.current? call.key = some f) w := by
      intro l t call a hcall hphase ha hk f hf
      rcases h.told l t call a hcall hphase ha hk f hf with hwas | hnow
      · exact .inl hwas
      · exact hkept hk hnow
    refine hears_step h.sound hstep htold ?_
    intro l j t call leader d a hcall hphase hleader hleads hreleases hk f hf
    have hslot := h.sound.paired hcall hphase hleader hleads
    cases hreleases with
    | land r =>
      cases hf
      -- Whoever computes for a browser's slot holds it, so the record is stored.
      have hp := ((h.ordered hk).held hleader hslot hleads).resolve_right id
      exact .inr (current?_of_landed h.sound hleader hslot hleads hp r)
    | fail error => exact absurd hf (leader.failureAnnouncement_ne_record error f)
    | quit => cases hf

theorem telling_cancel {w : Workbench} (h : Telling start events i w) (n : Nat) :
    Telling start events i (w.apply (.cancel n)) := by
  have hcurrent (k : Key) : (w.apply (.cancel n)).cache.current? k = w.cache.current? k :=
    current?_apply h.sound _ k
  constructor
  · exact sound_step h.sound (step_apply _ _)
  · exact fun hk => ordered_apply h.sound rfl (h.ordered hk)
  · -- Giving up a call restores what was current, so current records stay.
    refine h.changed.imp Spent.step fun hsame k hk => ?_
    exact (hcurrent k).trans (hsame k hk)
  · refine hears_step h.sound (step_apply w (.cancel n)) ?_ ?_
    · intro l t call a hcall hphase ha hk f hf
      rw [hcurrent]
      exact h.told l t call a hcall hphase ha hk f hf
    · -- A leader that quits announces no record.
      intro l j t call leader d a _ _ _ _ hreleases _ f hf
      cases hreleases
      cases hf

/-- From a session on in which no call that waits was told anything, what a call is told that waits
for a browser's slot was the current record of it before. -/
theorem told_was_current_since (h : Attended start) (hw : Sound start.bench)
    (hordered : ∀ {k : Key}, k.target = .dom → Ordered (fun _ => False) k start.bench)
    (hstill : Hears (fun _ _ _ => False) start.bench) (he : ∀ e ∈ events, e.isInside) :
    Hears (fun _ call a => call.key.target = .dom → ∀ f, a = .record f →
      WasCurrent start events call.key f) (start.run events).bench := by
  induction events using List.reverseRecOn with
  | nil =>
    intro l t call a hcall hphase ha
    exact (hstill l t call a hcall hphase ha).elim
  | append_singleton events e ih =>
    rw [List.forall_mem_append, List.forall_mem_singleton] at he
    have hattended : Attended (start.run events) :=
      attended_run h fun e hmem => Event.putsNothing_of_isInside (he.1 e hmem)
    -- Whose turn the last event is, if it is one at all.
    obtain ⟨i, hi⟩ : ∃ i, ∀ j, e = .resume j → j = i := by
      cases e with
      | resume j => exact ⟨j, by simp⟩
      | _ => exact ⟨0, by simp⟩
    have hbefore : Telling start events i (start.run events).bench := by
      constructor
      · obtain ⟨moves, hmoves⟩ := bench_run start events
        exact hmoves ▸ sound_run hw moves
      · exact fun hk => ordered_events hk hw he.1 (hordered hk)
      · exact .inr fun _ _ => rfl
      · intro l t call a hcall hphase ha hk f hf
        exact .inl (ih he.1 l t call a hcall hphase ha hk f hf)
    have hlast : Telling start events i ((start.run events).apply e).bench := by
      refine holds_inside hattended he.2 hbefore (fun h => telling_cancel h _) ?_
      intro j w m hj _ hm h
      obtain rfl := hi j hj
      exact telling_deed h hm
    rw [run_append]
    intro l t call a hcall hphase ha hk f hf
    -- The record was current at some earlier point, or is so now.
    rcases hlast.told l t call a hcall hphase ha hk f hf with hwas | hnow
    · exact hwas.append [e]
    · exact ⟨events ++ [e], [], by simp, by rw [run_append]; exact hnow⟩

/-- The same from a new session on. -/
theorem told_was_current (hbench : start.bench = {}) (htasks : start.tasks = [])
    (he : ∀ e ∈ events, e.isInside) :
    Hears (fun _ call a => call.key.target = .dom → ∀ f, a = .record f →
      WasCurrent start events call.key f) (start.run events).bench := by
  have hw : Sound start.bench := hbench ▸ sound_empty
  have hstill : Hears (fun _ _ _ => False) start.bench := hbench ▸ hears_empty _
  exact told_was_current_since (attended_start htasks) hw
    (fun _ => hbench ▸ ordered_empty _ _) hstill he

/-! ## Records that no compile is begun behind -/

/-- The record is the current one of a slot, no task is suspended on a compile for the slot, and
calls for it from the given number on are told of nothing but computes that have come to nothing. -/
structure Unrivalled (first : Nat) (k : Key) (f : Filed) (s : Session) : Prop where
  current : s.bench.cache.current? k = some f
  idle : ∀ {i : Nat} {stage : Stage} {c : Compiling}, s.stage? i = some stage →
    stage.compiling? = some c → (c.input.file.components, c.input.target) ≠ k.slot
  hears : Hears (fun n call a => first ≤ n → call.key.slot = k.slot → a = .abandoned) s.bench

/-- In a turn in which no compile for the slot begins, none ends. -/
theorem Unrivalled.not_ends (h : Unrivalled first k f s) {input : CompileInput}
    {result : CompileResult}
    (hcount : (s.resume i).compiler.begunFor k.slot = s.compiler.begunFor k.slot)
    (hends : s.EndsCompile i input result) :
    (input.file.components, input.target) ≠ k.slot := by
  cases hends with
  | awaited hstage hcompiling hinput => exact hinput ▸ h.idle hstage hcompiling
  | atOnce hstage hidle hstart =>
    intro hslot
    have hbegun := s.compiler.begunFor_start input k.slot
    rw [hstart, if_pos hslot] at hbegun
    change (s.resume i).compiler.begunFor k.slot = _ at hbegun
    omega

/-- What one deed preserves in such a turn. -/
theorem unrivalled_deed {w : Workbench} {m : Move} (h : Unrivalled first k f s)
    (hk : k.target = .dom)
    (hcount : (s.resume i).compiler.begunFor k.slot = s.compiler.begunFor k.slot) (hw : Sound w)
    (hm : s.Deed (s.resume i).compiler i w m) (hcurrent : w.cache.current? k = some f)
    (hhears : Hears (fun n call a => first ≤ n → call.key.slot = k.slot → a = .abandoned) w) :
    (w.apply m).cache.current? k = some f ∧
      Hears (fun n call a => first ≤ n → call.key.slot = k.slot → a = .abandoned) (w.apply m) := by
  -- A call for the slot whose compute ends has come to an error without a compile.
  have hnone {j t : Nat} {leader : Call} {d : Option Filed} {outcome : Except BuildError Record}
      (hmove : m = .finish j outcome) (hleader : w.calls[j]? = some leader)
      (hslot : leader.key.slot = k.slot) (hleads : leader.phase = .computing t d) :
      leader.intent = .recompute ∧ ∃ error, outcome = .error error := by
    subst hmove
    generalize hmove : Move.finish j outcome = m at hm
    cases hm with
    | compiled hown halone hends hcall =>
      obtain ⟨rfl, -⟩ := Move.finish.inj hmove
      cases hcall.symm.trans hleader
      exact absurd hslot (h.not_ends hcount hends)
    | unread hown hcall =>
      obtain ⟨rfl, rfl⟩ := Move.finish.inj hmove
      cases hcall.symm.trans hleader
      exact ⟨rfl, _, rfl⟩
    | _ => cases hmove
  constructor
  · rcases current?_apply_of_untouched hw (hm.sparesDom k hk) with
      hsame | ⟨j, t, leader, d, r, hmove, hleader, hslot, hleads, _, _⟩
    · exact hsame.trans hcurrent
    · obtain ⟨_, error, herror⟩ := hnone hmove hleader hslot hleads
      cases herror
  · refine hears_step hw (step_apply w m) hhears ?_
    intro n j t call leader d a hcall hphase hleader hleads hreleases _ hslot
    have hpaired := (hw.paired hcall hphase hleader hleads).trans hslot
    cases hreleases with
    | land r =>
      obtain ⟨_, error, herror⟩ := hnone rfl hleader hpaired hleads
      cases herror
    | fail error =>
      obtain ⟨hintent, _⟩ := hnone rfl hleader hpaired hleads
      simp only [Call.failureAnnouncement, hintent]
    | quit => rfl

/-- What one event preserves in which no compile for the slot begins. -/
theorem unrivalled_apply (h : Attended s) (hw : Sound s.bench) (he : e.isInside)
    (hk : k.target = .dom) (hu : Unrivalled first k f s)
    (hcount : (s.apply e).compiler.begunFor k.slot = s.compiler.begunFor k.slot) :
    Unrivalled first k f (s.apply e) := by
  let J (w : Workbench) : Prop := Sound w ∧ w.cache.current? k = some f ∧
    Hears (fun n call a => first ≤ n → call.key.slot = k.slot → a = .abandoned) w
  have hbench : J (s.apply e).bench := by
    refine holds_inside h he ⟨hw, hu.current, hu.hears⟩ ?_ ?_
    · rintro w n ⟨hw, hcurrent, hhears⟩
      have hstep := step_apply w (.cancel n)
      refine ⟨sound_step hw hstep, (current?_apply hw _ k).trans hcurrent, ?_⟩
      refine hears_step hw hstep hhears ?_
      intro l j t call leader d a _ _ _ _ hreleases _ _
      cases hreleases
      rfl
    · rintro j w m rfl _ hm ⟨hw, hcurrent, hhears⟩
      exact ⟨sound_step hw (step_apply w m), unrivalled_deed hu hk hcount hw hm hcurrent hhears⟩
  refine ⟨hbench.2.1, ?_, hbench.2.2⟩
  -- A task that is suspended on a compile was so before the event, or has begun it in its turn.
  intro i stage c hstage hc
  rcases stage?_of_apply h hstage with hthere | ⟨name, job, _, rfl⟩
  · obtain ⟨old, hold⟩ := Option.isSome_iff_exists.1 hthere
    by_cases hi : e.actor? = some i
    · cases e with
      | resume j =>
        cases hi
        rcases (suspends_resume h hw hold hstage hc).origin with ⟨c', hc', hinput⟩ | hbegun
        · exact hinput ▸ hu.idle hold hc'
        · -- A compile that the task has begun in its turn is for another slot.
          intro hslot
          have hstart := s.compiler.begunFor_start c.input k.slot
          rw [← hbegun, if_pos hslot] at hstart
          change (s.resume i).compiler.begunFor k.slot = s.compiler.begunFor k.slot at hcount
          omega
      | cancel j =>
        cases hi
        change (s.cancel i).stage? i = some stage at hstage
        rcases s.stage?_cancel i with hsame | hcancelled
        · rw [hsame] at hstage
          exact hu.idle hstage hc
        · cases hcancelled.symm.trans hstage
          cases hc
      | _ => cases hi
    · cases (stage?_apply_of_ne hold hi).symm.trans hstage
      exact hu.idle hold hc
  · cases hc

theorem unrivalled_run (h : Attended s) (hw : Sound s.bench) (he : ∀ e ∈ events, e.isInside)
    (hk : k.target = .dom) (hu : Unrivalled first k f s)
    (hcount : (s.run events).compiler.begunFor k.slot = s.compiler.begunFor k.slot) :
    Unrivalled first k f (s.run events) := by
  induction events generalizing s with
  | nil => exact hu
  | cons e events ih =>
    rw [List.forall_mem_cons] at he
    have hattended := attended_apply h (Event.putsNothing_of_isInside he.1)
    have hputs : ∀ e ∈ events, e.putsNothing := fun e hmem =>
      Event.putsNothing_of_isInside (he.2 e hmem)
    obtain ⟨moves, hmoves⟩ := bench_apply s e
    -- The count is the same at both ends and never goes down, so it is the same at each event.
    have hfirst := begunFor_le_apply h e k.slot
    have hrest := begunFor_le_run hattended hputs k.slot
    change ((s.apply e).run events).compiler.begunFor k.slot = _ at hcount
    exact ih hattended (hmoves ▸ sound_run hw moves) he.2
      (unrivalled_apply h hw he.1 hk hu (by omega)) (by omega)

/-- A task that is suspended on a compile has a call that computes for the slot of it. -/
theorem computes_of_compiling (h : Attended s) (hs : s.stage? i = some stage) {c : Compiling}
    (hc : stage.compiling? = some c) :
    ∃ (n t : Nat) (call : Call) (d : Option Filed), stageCall? stage = some n ∧
      s.bench.calls[n]? = some call ∧ call.phase = .computing t d ∧
      call.key.slot = (c.input.file.components, c.input.target) := by
  have hfits := h.fits hs
  -- A compile is under way only behind a call that leads.
  cases stage with
  | serving r code n making =>
    cases hc
    obtain ⟨⟨t, d, hcall⟩, hinput⟩ := hfits
    exact ⟨n, t, _, d, rfl, hcall, rfl, by rw [hinput]; rfl⟩
  | updating u component n making =>
    match making with
    | some (.compiling c') =>
      cases hc
      obtain ⟨⟨t, d, hcall⟩, hinputs⟩ := hfits
      obtain ⟨code, hinput⟩ := hinputs c rfl
      exact ⟨n, t, _, d, rfl, hcall, rfl, by rw [hinput]; rfl⟩
  | _ => cases hc

/-- Behind the event in which a record is stored in a browser's slot, no compile for the slot is
under way. -/
theorem unrivalled_of_stored (h : Attended s) (hw : Sound s.bench) (he : e.isInside)
    (hk : k.target = .dom) (hordered : Ordered (fun _ => False) k s.bench)
    (hstored : s.StoredIn e k f) :
    Unrivalled (s.apply e).bench.calls.length k f (s.apply e) := by
  have hbefore := hstored.1
  have hattended := attended_apply h (Event.putsNothing_of_isInside he)
  have hw' : Sound (s.apply e).bench := by
    obtain ⟨moves, hmoves⟩ := bench_apply s e
    exact hmoves ▸ sound_run hw moves
  have hinside : ∀ e' ∈ [e], e'.isInside := by simpa using he
  have hordered' : Ordered (fun _ => False) k (s.apply e).bench :=
    ordered_events hk hw hinside hordered
  -- Whoever computes for the slot has its current record in hand.
  have hdisplaced {y : Session} (hy : Sound y.bench) (hordered : Ordered (fun _ => False) k y.bench)
      {n t : Nat} {call : Call} {d : Option Filed} (hcall : y.bench.calls[n]? = some call)
      (hslot : call.key.slot = k.slot) (hphase : call.phase = .computing t d) :
      y.bench.cache.current? k = d := by
    have hp := (hordered.held hcall hslot hphase).resolve_right id
    rw [← isPending_congr hslot] at hp
    have hcurrent := current?_of_computing hy hcall hphase hp
    rwa [Cache.current?, Cache.content?_congr hslot] at hcurrent
  refine ⟨hstored.2, ?_, ?_⟩
  · intro i stage c hstage hc hslot
    obtain ⟨n, t, call, d, hn, hcall, hphase, hkey⟩ := computes_of_compiling hattended hstage hc
    have hcurrent := hdisplaced hw' hordered' hcall (hkey.trans hslot) hphase
    rcases stage?_of_apply h hstage with hthere | ⟨name, job, _, rfl⟩
    · obtain ⟨old, hold⟩ := Option.isSome_iff_exists.1 hthere
      by_cases hi : e.actor? = some i
      · cases e with
        | resume j =>
          cases hi
          exact hbefore (((suspends_resume h hw hold hstage hc).current k).symm.trans hstored.2)
        | cancel j =>
          cases hi
          change (s.cancel i).stage? i = some stage at hstage
          rcases s.stage?_cancel i with hsame | hcancelled
          · have hsame' : s.apply (.cancel i) = s := hsame
            rw [StoredIn, hsame'] at hstored
            exact hbefore hstored.2
          · cases hcancelled.symm.trans hstage
            cases hc
        | _ => cases hi
      · -- The task and its call are as they were, and the slot was held by that call before.
        cases (stage?_apply_of_ne hold hi).symm.trans hstage
        rw [calls_apply_of_stageCall? h (Event.putsNothing_of_isInside he) hold hn hi] at hcall
        have hearlier := hdisplaced hw hordered hcall (hkey.trans hslot) hphase
        rw [← hcurrent, hstored.2] at hearlier
        exact hbefore hearlier
    · cases hc
  · intro l t call a hcall _ _ hlater
    exact absurd (List.getElem?_eq_some_iff.1 hcall).1 (Nat.not_lt_of_le hlater)

end Session

end HotComponents
