import HotComponents.Proofs.Session.Readers

/-!
# Which changes are stale

While hot updates are on, a change is seen in the first turn of its answer, whatever becomes of the
answer then, and the session keeps the latest time at which each file was seen to change. So a change
is stale exactly if a change of the file that came first to its first turn has a time that is not
earlier, however the two paths are spelled and whatever has happened since.

* `isStale_apply`, `isStale_run`: the times that a session keeps, behind an event and behind a run;
* `turn_cases`: an answer takes its first turn once;
* `changes_are_stale_exactly_behind_later_ones`: which changes are answered as stale, and what
  becomes of the others.
-/

namespace HotComponents

open ModuleId

namespace Session

variable {s start : Session} {i j : Nat} {job : Job} {old stage : Stage} {e : Event}
  {events before later first second : List Event} {file g : FilePath} {timestamp u : Nat}

/-! ## Turns and times -/

/-- The event is the first turn of an answer to a change. -/
def Notices (s : Session) (e : Event) (i : Nat) (file : FilePath) (timestamp : Nat) : Prop :=
  e = .resume i ∧ s.stage? i = some (.fresh (.change file timestamp))

/-- Behind a turn a task that is there is at its stage, or at one that turns lead to. -/
theorem Arrives.stage? {y : Session} {own₀ : Option Nat} (h : Arrives i stage own₀ s y)
    (hs : s.stage? j = some old) : ∃ new, y.stage? j = some new ∧ (new = old ∨ new.isOnward) := by
  cases h with
  | @comes own z new h honward =>
    have hz : z.stage? j = some old := by rwa [Session.stage?, h.kept.2.2]
    by_cases hij : i = j
    · subst hij
      exact ⟨new, stage?_setStage_self (Option.isSome_of_eq_some hz) new, .inr honward⟩
    · refine ⟨old, ?_, .inl rfl⟩
      rw [stage?_setStage, if_neg hij, hz]
  | stays h =>
    refine ⟨old, ?_, .inl rfl⟩
    rwa [Session.stage?, h.kept.2.2]

/-- A turn that is not the first one of an answer to a change is made of steps. -/
theorem arrives_resume (hs : s.stage? i = some old) (hother : old.isNotice = false) :
    Arrives i old (stageCall? old) s (s.resume i) := by
  rw [resume_eq hs]
  exact arrives_resumeFrom hother

/-- Options and times stay behind an event that is not the first turn of an answer to a change. -/
theorem times_apply (hother : ∀ i file timestamp, ¬ s.Notices e i file timestamp) :
    (s.apply e).options = s.options ∧ (s.apply e).lastSeen = s.lastSeen := by
  cases e with
  | resume i =>
    change (s.resume i).options = s.options ∧ (s.resume i).lastSeen = s.lastSeen
    cases hs : s.stage? i with
    | none =>
      have hgone : s.tasks[i]? = none := Option.map_eq_none_iff.1 hs
      simp only [resume, hgone, and_self]
    | some old =>
      refine (arrives_resume hs ?_).kept
      unfold Stage.isNotice
      split
      · exact absurd ⟨rfl, hs⟩ (hother i _ _)
      · rfl
  | cancel i =>
    change (s.cancel i).options = s.options ∧ (s.cancel i).lastSeen = s.lastSeen
    cases ht : s.tasks[i]? with
    | none => simp only [cancel, ht, and_self]
    | some t => exact (arrives_cancel ht).kept
  | resolve id importer target =>
    obtain ⟨resolver, journal, hresolved⟩ := apply_resolve s id importer target
    rw [hresolved]
    exact ⟨rfl, rfl⟩
  | _ => exact ⟨rfl, rfl⟩

/-- A task that is not still to answer to a change stays at its stage in an event, or comes to one
that turns lead to. -/
theorem stage?_apply (hs : s.stage? i = some old) (hother : old.isNotice = false) (e : Event) :
    ∃ new, (s.apply e).stage? i = some new ∧ (new = old ∨ new.isOnward) := by
  by_cases hactor : e.actor? = some i
  · cases e with
    | resume j =>
      cases hactor
      exact (arrives_resume hs hother).stage? hs
    | cancel j =>
      cases hactor
      obtain ⟨t, ht, -⟩ := Option.map_eq_some_iff.1 hs
      exact (arrives_cancel ht).stage? hs
    | _ => cases hactor
  · exact ⟨old, stage?_apply_of_ne hs hactor, .inl rfl⟩

/-- So it does in any run. -/
theorem stage?_run (hs : s.stage? i = some old) (hother : old.isNotice = false)
    (events : List Event) :
    ∃ new, (s.run events).stage? i = some new ∧ (new = old ∨ new.isOnward) := by
  induction events generalizing s old with
  | nil => exact ⟨old, hs, .inl rfl⟩
  | cons e events ih =>
    obtain ⟨new, hnew, rfl | honward⟩ := stage?_apply hs hother e
    · exact ih hnew hother
    · obtain ⟨last, hlast, hstays⟩ := ih hnew (Stage.isNotice_of_isOnward honward)
      refine ⟨last, hlast, .inr ?_⟩
      rcases hstays with rfl | honward'
      · exact honward
      · exact honward'

/-! ## Changes that are seen -/

/-- What is stale once a change has been seen that was not. -/
theorem isStale_observe (hnew : s.isStale g u = false) :
    (s.observe g u).isStale file timestamp ↔
      s.isStale file timestamp ∨ g.same file ∧ timestamp ≤ u := by
  by_cases hsame : g.same file
  · rw [isStale_iff, lastSeen?_observe_same s hsame]
    constructor
    · rintro ⟨last, hlast, hle⟩
      cases hlast
      exact .inr ⟨hsame, hle⟩
    · rintro (hstale | ⟨-, hle⟩)
      · -- The time that was kept before is earlier than the one that is seen.
        obtain ⟨last, hlast, hle⟩ := isStale_iff.1 hstale
        have hearlier : ¬ u ≤ last := fun hlater => by
          rw [← Bool.not_eq_true, isStale_iff] at hnew
          exact hnew ⟨last, (lastSeen?_congr hsame).trans hlast, hlater⟩
        exact ⟨u, rfl, by omega⟩
      · exact ⟨u, rfl, hle⟩
  · rw [isStale, lastSeen?_observe_other s hsame]
    simp only [hsame, Bool.false_eq_true, false_and, or_false]
    rfl

/-! ## First turns of answers -/

/-- The first turn of an answer to a stale change ends it. -/
theorem apply_of_stale (hhot : s.options.hot) (hturns : s.Notices e i file timestamp)
    (hstale : s.isStale file timestamp) :
    ∃ notes, s.apply e = (s.say notes).endTask i (.updated .stale) := by
  obtain ⟨rfl, hs⟩ := hturns
  have hbegun : s.apply (.resume i) = s.startChange i file timestamp := resume_eq hs
  rw [hbegun]
  exact startChange_of_stale hhot hstale

/-- From a change that is not stale the session goes on as one that has seen it. -/
theorem arrives_of_new (hhot : s.options.hot) (hturns : s.Notices e i file timestamp)
    (hnew : s.isStale file timestamp = false) :
    Arrives i (.fresh (.change file timestamp)) none (s.observe file timestamp) (s.apply e) := by
  obtain ⟨rfl, hs⟩ := hturns
  change Arrives i _ none (s.observe file timestamp) (s.resume i)
  rw [resume_eq hs]
  exact arrives_startChange hhot hnew

/-- What one event makes of the options, and of what is stale: behind the first turn of an answer,
every change of the file is stale that is not later. -/
theorem isStale_apply (hhot : s.options.hot) (e : Event) :
    (s.apply e).options.hot ∧ ∀ file timestamp, (s.apply e).isStale file timestamp ↔
      s.isStale file timestamp ∨
        ∃ i g u, s.Notices e i g u ∧ g.same file ∧ timestamp ≤ u := by
  by_cases hfirst : ∃ i g u, s.Notices e i g u
  · obtain ⟨i, g, u, hturns⟩ := hfirst
    have honly {j : Nat} {f : FilePath} {t : Nat} (h : s.Notices e j f t) : f = g ∧ t = u := by
      obtain ⟨rfl, hs⟩ := hturns
      obtain ⟨hsame, hs'⟩ := h
      cases hsame
      cases hs.symm.trans hs'
      exact ⟨rfl, rfl⟩
    cases hstale : s.isStale g u with
    | true =>
      obtain ⟨notes, hanswered⟩ := apply_of_stale hhot hturns hstale
      rw [hanswered]
      refine ⟨hhot, fun file timestamp => ⟨.inl, ?_⟩⟩
      rintro (hstale' | ⟨j, f, t, hturns', hsame, hle⟩)
      · exact hstale'
      · -- What is not later than a stale change is stale already.
        obtain ⟨rfl, rfl⟩ := honly hturns'
        obtain ⟨last, hlast, hle'⟩ := isStale_iff.1 hstale
        exact isStale_iff.2 ⟨last, (lastSeen?_congr hsame).symm.trans hlast, hle.trans hle'⟩
    | false =>
      obtain ⟨hoptions, hseen⟩ := (arrives_of_new hhot hturns hstale).kept
      refine ⟨hoptions ▸ hhot, fun file timestamp => ?_⟩
      rw [isStale_congr hseen]
      refine (isStale_observe hstale).trans (or_congr_right ⟨?_, ?_⟩)
      · rintro ⟨hsame, hle⟩
        exact ⟨i, g, u, hturns, hsame, hle⟩
      · rintro ⟨j, f, t, hturns', hsame, hle⟩
        obtain ⟨rfl, rfl⟩ := honly hturns'
        exact ⟨hsame, hle⟩
  · obtain ⟨hoptions, hseen⟩ := times_apply fun i g u hturns => hfirst ⟨i, g, u, hturns⟩
    refine ⟨hoptions ▸ hhot, fun file timestamp => ?_⟩
    rw [isStale_congr hseen]
    refine ⟨.inl, ?_⟩
    rintro (hstale | ⟨i, g, u, hturns, -⟩)
    · exact hstale
    · exact absurd ⟨i, g, u, hturns⟩ hfirst

/-! ## Runs -/

/-- In a run of events, the answer to a change of the file, in any spelling, takes its first turn. -/
def Notified (start : Session) (events : List Event) (file : FilePath) (u : Nat) : Prop :=
  ∃ i g first, start.FirstTurn events i (.change g u) first ∧ g.same file

theorem Notified.append (h : start.Notified events file u) (more : List Event) :
    start.Notified (events ++ more) file u := by
  obtain ⟨i, g, first, hturn, hsame⟩ := h
  exact ⟨i, g, first, hturn.append more, hsame⟩

/-- A change of a file has come to its first turn before the last event, or does so in it. -/
theorem notified_concat : start.Notified (events ++ [e]) file u ↔
    start.Notified events file u ∨ ∃ i g, (start.run events).Notices e i g u ∧ g.same file := by
  constructor
  · rintro ⟨i, g, first, hturn, hsame⟩
    rcases firstTurn_concat hturn with hearlier | ⟨hlast, -, hfresh⟩
    · exact .inl ⟨i, g, first, hearlier, hsame⟩
    · exact .inr ⟨i, g, ⟨hlast, hfresh⟩, hsame⟩
  · rintro (hearlier | ⟨i, g, ⟨rfl, hfresh⟩, hsame⟩)
    · exact hearlier.append [e]
    · exact ⟨i, g, events, ⟨⟨[], rfl⟩, hfresh⟩, hsame⟩

/-- Behind a run a change is stale if one of the file that is not earlier has come to its first turn
in the run. -/
theorem isStale_run (hhot : start.options.hot) (hunseen : start.lastSeen = [])
    (events : List Event) :
    (start.run events).options.hot ∧ ∀ file timestamp,
      (start.run events).isStale file timestamp ↔
        ∃ u, timestamp ≤ u ∧ start.Notified events file u := by
  induction events using List.reverseRecOn with
  | nil =>
    refine ⟨hhot, fun file timestamp => ?_⟩
    constructor
    · intro hstale
      obtain ⟨last, hlast, -⟩ := isStale_iff.1 hstale
      change start.lastSeen? file = some last at hlast
      rw [lastSeen?, hunseen] at hlast
      cases hlast
    · rintro ⟨u, -, i, g, first, ⟨⟨later, hevents⟩, -⟩, -⟩
      simp at hevents
  | append_singleton events e ih =>
    obtain ⟨hhot', hknown⟩ := ih
    obtain ⟨hhot'', hknown'⟩ := isStale_apply hhot' e
    rw [run_concat]
    refine ⟨hhot'', fun file timestamp => ?_⟩
    rw [hknown', hknown]
    constructor
    · rintro (⟨u, hle, hearlier⟩ | ⟨i, g, u, hturns, hsame, hle⟩)
      · exact ⟨u, hle, hearlier.append [e]⟩
      · exact ⟨u, hle, notified_concat.2 (.inr ⟨i, g, hturns, hsame⟩)⟩
    · rintro ⟨u, hle, hnotified⟩
      rcases notified_concat.1 hnotified with hearlier | ⟨i, g, hturns, hsame⟩
      · exact .inl ⟨u, hle, hearlier⟩
      · exact .inr ⟨i, g, u, hturns, hsame, hle⟩

/-! ## An answer takes its first turn once -/

/-- Behind the first turn of its answer, a stale change is answered. -/
theorem stage?_of_stale (hhot : s.options.hot) (hturns : s.Notices e i file timestamp)
    (hstale : s.isStale file timestamp) :
    (s.apply e).stage? i = some (.done (.updated .stale)) := by
  obtain ⟨notes, hanswered⟩ := apply_of_stale hhot hturns hstale
  have hthere : ((s.say notes).stage? i).isSome := Option.isSome_of_eq_some hturns.2
  rw [hanswered]
  exact stage?_setStage_self hthere _

/-- Behind the first turn of its answer, a change that is not stale goes on or is answered with
something else. -/
theorem stage?_of_new (hhot : s.options.hot) (hturns : s.Notices e i file timestamp)
    (hnew : s.isStale file timestamp = false) :
    ∃ stage, (s.apply e).stage? i = some stage ∧ stage.isOnward := by
  have harrives := arrives_of_new hhot hturns hnew
  obtain ⟨rfl, hs⟩ := hturns
  obtain ⟨-, stage, hstage, hbegun, -⟩ := firstTurn hs hhot hnew
  obtain ⟨stage', hstage', rfl | honward⟩ := harrives.stage? (show _ = some _ from hs)
  · cases hstage.symm.trans hstage'
    cases hbegun
  · exact ⟨stage', hstage', honward⟩

/-- A task that is resumed or given up is not to take the first turn of an answer afterwards. -/
theorem isNotice_apply (hhot : s.options.hot) (hs : s.stage? i = some old)
    (hactor : e.actor? = some i) :
    ∃ new, (s.apply e).stage? i = some new ∧ new.isNotice = false := by
  cases hnotice : old.isNotice with
  | false =>
    obtain ⟨new, hnew, rfl | honward⟩ := stage?_apply hs hnotice e
    · exact ⟨new, hnew, hnotice⟩
    · exact ⟨new, hnew, Stage.isNotice_of_isOnward honward⟩
  | true =>
    unfold Stage.isNotice at hnotice
    split at hnotice
    · next file timestamp =>
      cases e with
      | resume j =>
        cases hactor
        cases hstale : s.isStale file timestamp with
        | true => exact ⟨_, stage?_of_stale hhot ⟨rfl, hs⟩ hstale, rfl⟩
        | false =>
          obtain ⟨new, hnew, honward⟩ := stage?_of_new hhot ⟨rfl, hs⟩ hstale
          exact ⟨new, hnew, Stage.isNotice_of_isOnward honward⟩
      | cancel j =>
        cases hactor
        obtain ⟨t, ht, hstage⟩ := Option.map_eq_some_iff.1 hs
        refine ⟨.cancelled, ?_, rfl⟩
        simp only [apply, cancel, ht, hstage, stageCall?, Option.elim_none]
        exact stage?_setStage_self (Option.isSome_of_eq_some hs) _
      | _ => cases hactor
    · cases hnotice

/-- Whenever a task is resumed or given up that takes the first turn of an answer in a run, it is not
there yet, takes that turn, or has taken it before. -/
theorem turn_cases (hhot : start.options.hot) (hunseen : start.lastSeen = [])
    (hturn : start.FirstTurn events i (.change file timestamp) first)
    (hcut : events = before ++ e :: later) (hactor : e.actor? = some i) :
    (start.run before).stage? i = none ∨ (before = first ∧ e = .resume i) ∨
      ∃ middle, before = first ++ .resume i :: middle := by
  obtain ⟨⟨rest, rfl⟩, hfresh⟩ := hturn
  rcases List.append_eq_append_iff.1 hcut with ⟨middle, rfl, htail⟩ | ⟨middle, rfl, htail⟩
  · cases middle with
    | nil =>
      injection htail with hsame
      exact .inr (.inl ⟨List.append_nil first, hsame.symm⟩)
    | cons e' middle =>
      injection htail with hsame
      exact .inr (.inr ⟨middle, hsame ▸ rfl⟩)
  · cases middle with
    | nil =>
      injection htail with hsame
      exact .inr (.inl ⟨(List.append_nil before).symm, hsame⟩)
    | cons e' middle =>
      injection htail with hsame
      subst hsame
      left
      cases hs : (start.run before).stage? i with
      | none => rfl
      | some old =>
        -- What has happened to the task keeps it from the first turn that it takes later.
        obtain ⟨hhot', -⟩ := isStale_run hhot hunseen before
        obtain ⟨new, hnew, hother⟩ := isNotice_apply hhot' hs hactor
        obtain ⟨last, hlast, hstays⟩ := stage?_run hnew hother middle
        rw [run_append] at hfresh
        cases hlast.symm.trans hfresh
        rcases hstays with rfl | honward
        · cases hother
        · cases honward

/-! ## Answers -/

/-- A change is answered as stale in the end exactly if one of its file that is not earlier has come
to its first turn by the time that it does. -/
theorem answered_stale_iff (hhot : start.options.hot) (hunseen : start.lastSeen = [])
    (hturn : start.FirstTurn events i (.change file timestamp) first) :
    (start.run events).stage? i = some (.done (.updated .stale)) ↔
      ∃ u, timestamp ≤ u ∧ start.Notified first file u := by
  obtain ⟨⟨later, rfl⟩, hfresh⟩ := hturn
  obtain ⟨hhot', hknown⟩ := isStale_run hhot hunseen first
  rw [← hknown, run_append]
  change (((start.run first).apply (.resume i)).run later).stage? i = _ ↔ _
  cases hstale : (start.run first).isStale file timestamp with
  | true =>
    have hanswered := stage?_of_stale hhot' ⟨rfl, hfresh⟩ hstale
    exact iff_of_true (ended_run hanswered rfl later) rfl
  | false =>
    refine iff_of_false (fun hanswered => ?_) nofun
    obtain ⟨new, hnew, honward⟩ := stage?_of_new hhot' ⟨rfl, hfresh⟩ hstale
    obtain ⟨last, hlast, hstays⟩ := stage?_run hnew (Stage.isNotice_of_isOnward honward) later
    cases hlast.symm.trans hanswered
    rcases hstays with rfl | honward'
    · cases honward
    · cases honward'

/-- Nothing that happens to the task of a stale change changes workbench, compiler or times. -/
theorem stale_answer_keeps (hhot : start.options.hot) (hunseen : start.lastSeen = [])
    (hturn : start.FirstTurn events i (.change file timestamp) first)
    (hanswered : (start.run events).stage? i = some (.done (.updated .stale)))
    (hcut : events = before ++ e :: later) (hactor : e.actor? = some i) :
    let s := start.run before
    (s.apply e).bench = s.bench ∧ (s.apply e).compiler = s.compiler ∧
      (s.apply e).lastSeen = s.lastSeen := by
  intro s
  obtain ⟨hhot', hknown⟩ := isStale_run hhot hunseen first
  have hstale := (hknown file timestamp).2 ((answered_stale_iff hhot hunseen hturn).1 hanswered)
  have hstays (hsame : s.apply e = s) : (s.apply e).bench = s.bench ∧
      (s.apply e).compiler = s.compiler ∧ (s.apply e).lastSeen = s.lastSeen := by
    rw [hsame]
    exact ⟨rfl, rfl, rfl⟩
  rcases turn_cases hhot hunseen hturn hcut hactor with habsent | ⟨rfl, rfl⟩ | ⟨middle, rfl⟩
  · -- There is no such task yet.
    have hgone : s.tasks[i]? = none := Option.map_eq_none_iff.1 habsent
    refine hstays ?_
    cases e with
    | resume j =>
      cases hactor
      simp only [apply, resume, hgone]
    | cancel j =>
      cases hactor
      simp only [apply, cancel, hgone]
    | _ => cases hactor
  · obtain ⟨notes, hfirst⟩ := apply_of_stale hhot' ⟨rfl, hturn.2⟩ hstale
    rw [hfirst]
    exact ⟨rfl, rfl, rfl⟩
  · -- The change has been answered by then.
    have hended := stage?_of_stale hhot' ⟨rfl, hturn.2⟩ hstale
    have hthere : s.stage? i = some (.done (.updated .stale)) := by
      have hlater := ended_run hended rfl middle
      change ((start.run (first ++ .resume i :: middle))).stage? i = _
      rw [run_append]
      exact hlater
    exact hstays (apply_of_hasEnded hthere rfl hactor)

/-- Of two first turns in a run, the earlier one is among the events before the later one. -/
theorem FirstTurn.of_length_lt {job' : Job} (hturn : start.FirstTurn events i job first)
    (hturn' : start.FirstTurn events j job' second) (hearlier : first.length < second.length) :
    start.FirstTurn second i job first := by
  obtain ⟨⟨later, rfl⟩, hfresh⟩ := hturn
  obtain ⟨⟨later', hcut⟩, -⟩ := hturn'
  have hturned : first ++ [.resume i] <+: first ++ .resume i :: later := ⟨later, by simp⟩
  have hbefore : first ++ [.resume i] <+: second := by
    refine List.prefix_of_prefix_length_le hturned ⟨_, hcut.symm⟩ ?_
    rw [List.length_append, List.length_singleton]
    omega
  obtain ⟨middle, rfl⟩ := hbefore
  exact ⟨⟨middle, by simp⟩, hfresh⟩

/-- In a session with hot updates on that has seen no change yet, and in any run of events from it, a
change whose answer takes its first turn is answered as stale exactly if a change of the same file, by
the components of the paths, whose time is not earlier has come to its first turn before, whatever has
become of that and whatever else has happened. If it is answered so, nothing that happens to its task
in the run makes a call on the cache, begins a compile, or changes a record, what depends on a file, or
the times of changes. And if it is not, its time is later than those of all changes of the file that
came to their first turns before: so the times of the changes of a file that are not stale increase in
the order of their first turns. -/
theorem changes_are_stale_exactly_behind_later_ones (start : Session) (events : List Event) :
    start.options.hot → start.lastSeen = [] →
    (∀ i file timestamp first, start.FirstTurn events i (.change file timestamp) first →
      ((start.run events).stage? i = some (.done (.updated .stale)) ↔
        ∃ u, timestamp ≤ u ∧ start.Notified first file u) ∧
      ((start.run events).stage? i = some (.done (.updated .stale)) →
        ∀ before e later, events = before ++ e :: later → e.actor? = some i →
          let s := start.run before
          (s.apply e).bench = s.bench ∧ (s.apply e).compiler = s.compiler ∧
            (s.apply e).lastSeen = s.lastSeen)) ∧
    ∀ i j f g t u first second, start.FirstTurn events i (.change f t) first →
      start.FirstTurn events j (.change g u) second → f.same g → first.length < second.length →
      (start.run events).stage? j ≠ some (.done (.updated .stale)) → t < u := by
  intro hhot hunseen
  constructor
  · intro i file timestamp first hturn
    exact ⟨answered_stale_iff hhot hunseen hturn,
      fun hanswered before e later => stale_answer_keeps hhot hunseen hturn hanswered⟩
  · intro i j f g t u first second hturn hturn' hsame hearlier haccepted
    rw [ne_eq, answered_stale_iff hhot hunseen hturn'] at haccepted
    have hnotified : start.Notified second g t :=
      ⟨i, f, first, hturn.of_length_lt hturn' hearlier, hsame⟩
    by_contra hlate
    exact haccepted ⟨t, Nat.le_of_not_lt hlate, hnotified⟩

/-- A change is given up behind its first turn and the session is closed. Another change at the same
time, of the file in another spelling, is stale all the same; a later one, in a third spelling, is
not. -/
theorem changes_are_stale_exactly_behind_later_ones_spelled :
    let given : List Event := [Sample.typed "one", .resume 0, .resume 0, .resume 0,
      .start "first" (.change ⟨"/A.svelte"⟩ 5)]
    let closed : List Event := given ++ [.resume 1, .cancel 1, .close,
      .start "second" (.change ⟨"//A.svelte"⟩ 5)]
    let answered : List Event := closed ++ [.resume 2, .start "third" (.change ⟨"/./A.svelte"⟩ 6)]
    let events : List Event := answered ++ [.resume 3]
    let last := Sample.patient.run events
    last.stage? 1 = some .cancelled ∧
    last.stage? 2 = some (.done (.updated .stale)) ∧
    last.stage? 3 = some (.done (.updated .notLoaded)) ∧
    ((Sample.patient.run closed).resume 2).bench = (Sample.patient.run closed).bench ∧ 5 < 6 := by
  intro given closed answered events last
  have hfirst : Sample.patient.FirstTurn events 1 (.change ⟨"/A.svelte"⟩ 5) given :=
    ⟨⟨_, rfl⟩, by decide +kernel⟩
  have hsecond : Sample.patient.FirstTurn events 2 (.change ⟨"//A.svelte"⟩ 5) closed :=
    ⟨⟨_, rfl⟩, by decide +kernel⟩
  have hthird : Sample.patient.FirstTurn events 3 (.change ⟨"/./A.svelte"⟩ 6) answered :=
    ⟨⟨_, rfl⟩, by decide +kernel⟩
  have hbefore : Sample.patient.FirstTurn closed 1 (.change ⟨"/A.svelte"⟩ 5) given :=
    hfirst.of_length_lt hsecond (by decide)
  have hends : last.stage? 1 = some .cancelled ∧
      last.stage? 3 = some (.done (.updated .notLoaded)) := by decide +kernel
  obtain ⟨hanswers, hincreasing⟩ :=
    changes_are_stale_exactly_behind_later_ones Sample.patient events rfl rfl
  obtain ⟨hstale, hkeeps⟩ := hanswers 2 _ _ _ hsecond
  have hignored := hstale.2 ⟨5, le_rfl, 1, _, given, hbefore, by decide⟩
  refine ⟨hends.1, hignored, hends.2, (hkeeps hignored closed (.resume 2) _ rfl rfl).1, ?_⟩
  refine hincreasing 2 3 _ _ 5 6 closed answered hsecond hthird (by decide) (by decide) ?_
  rw [hends.2]
  nofun

end Session

end HotComponents
