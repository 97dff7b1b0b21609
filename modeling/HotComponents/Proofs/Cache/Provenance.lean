import HotComponents.Proofs.Cache.Current

/-!
# Where records and errors come from

A call that waits is told what became of the one compute it waits for, which is a compute for the
same slot. So what every compute is known to give its record holds of each record that a slot or a
call can get hold of, and an error that a call is told is that of a compute for its own slot.

* `hears_step`: what calls that wait are told comes from whoever lets their ticket go;
* `filled_apply`: what holds of each record that is computed holds of each record there is;
* `reaches_resume`: what a call comes to when it is resumed.
-/

namespace HotComponents

/-- The call that a move is for. -/
def Move.call? : Move → Option Nat
  | resume i | finish i _ | cancel i => some i
  | _ => none

namespace Workbench

variable {w w' : Workbench} {m : Move} {i n : Nat} {call : Call}

/-- A call stays as it is in a move that is not for it. -/
theorem calls_apply_of_ne (hlt : n < w.calls.length) (hne : m.call? ≠ some n) :
    (w.apply m).calls[n]? = w.calls[n]? := by
  have hother {i : Nat} (hi : m.call? = some i) (c : Cache) (call : Call) :
      (w.update i c call).calls[n]? = w.calls[n]? := by
    have hin : i ≠ n := by
      rintro rfl
      exact hne hi
    exact List.getElem?_set_ne hin
  -- Only turns of calls and a new call change the list, and the new one comes behind.
  cases m with
  | make => exact List.getElem?_append_left hlt
  | resume i =>
    simp only [apply]
    split
    · exact hother rfl _ _
    · rfl
  | finish i result =>
    simp only [apply]
    split
    · exact hother rfl _ _
    · rfl
  | cancel i =>
    simp only [apply]
    split
    · exact hother rfl _ _
    · rfl
  | _ => rfl

/-- A call that a move is for takes a turn. -/
theorem exists_turn {m : Move} (hm : m.call? = some n) (hcall : w.calls[n]? = some call) :
    ∃ (c : Cache) (p : Phase), w.apply m = w.update n c (call.atPhase p) ∧
      Turn w.cache call n m c p := by
  cases m with
  | resume i =>
    cases hm
    obtain ⟨p, hturn, hp⟩ := call.turn_resume w.cache n
    refine ⟨_, p, ?_, hturn⟩
    simp only [apply, hcall, hp]
  | finish i result =>
    cases hm
    obtain ⟨p, hturn, hp⟩ := call.turn_finish w.cache n result
    refine ⟨_, p, ?_, hturn⟩
    simp only [apply, hcall, hp]
  | cancel i =>
    cases hm
    obtain ⟨p, hturn, hp⟩ := call.turn_cancel w.cache n
    refine ⟨_, p, ?_, hturn⟩
    simp only [apply, hcall, hp]
  | _ => cases hm

/-! ## What calls are told -/

/-- Whatever is announced to a call that waits has a property. -/
def Hears (Q : Nat → Call → Announcement → Prop) (w : Workbench) : Prop :=
  ∀ (i t : Nat) (call : Call) (a : Announcement), w.calls[i]? = some call →
    call.phase = .waiting t → w.cache.announcement? t = some a → Q i call a

/-- Nobody waits at the empty workbench. -/
theorem hears_empty (Q : Nat → Call → Announcement → Prop) : Hears Q {} := by
  intro i t call a hcall
  simp at hcall

/-- What one step preserves: the property is that of each announcement with which a ticket is let
go for which calls wait. -/
theorem hears_step {Q : Nat → Call → Announcement → Prop} (hw : Sound w) (h : Step w m w')
    (hQ : Hears Q w)
    (hnew : ∀ {i j t : Nat} {call leader : Call} {d : Option Filed} {a : Announcement},
      w.calls[i]? = some call → call.phase = .waiting t → w.calls[j]? = some leader →
      leader.phase = .computing t d → leader.Releases j t m a → Q i call a) : Hears Q w' := by
  intro i t call a hcall hphase ha
  rcases waiting_step h hcall hphase with hold | ⟨_, hcache, ⟨d, hp⟩, _⟩
  · rcases announced_step h ha with hknown | ⟨j, leader, d, hleader, hleads, _, hreleases⟩
    · exact hQ i t call a hold hphase hknown
    · exact hnew hold hphase hleader hleads hreleases
  · -- The ticket is still held by whoever computes for the slot that the call has found pending.
    rw [hcache] at ha
    obtain ⟨j, leader, hleader, _, hleads⟩ := hw.led hp
    rw [hw.unheard hleader hleads] at ha
    cases ha

/-! ## Records -/

/-- Every record that is current or is announced to a call that waits has a property that may depend
on its slot. -/
structure Filled (P : Slot → Record → Prop) (w : Workbench) : Prop where
  current : ∀ {k : Key} {f : Filed}, w.cache.current? k = some f → P k.slot f.record
  heard : Hears (fun _ call a => ∀ f, a = .record f → P call.key.slot f.record) w

/-- Nothing is held there either. -/
theorem filled_empty (P : Slot → Record → Prop) : Filled P {} where
  current hf := by simp [Cache.current?, Cache.content?] at hf
  heard := hears_empty _

/-- What is known of all records may be weakened. -/
theorem Filled.mono {P Q : Slot → Record → Prop} (h : Filled P w)
    (hPQ : ∀ {s : Slot} {r : Record}, P s r → Q s r) : Filled Q w where
  current hf := hPQ (h.current hf)
  heard i t call a hcall hphase ha f hf := hPQ (h.heard i t call a hcall hphase ha f hf)

/-- Two things that are known of all records are known of them together. -/
theorem Filled.and {P Q : Slot → Record → Prop} (h : Filled P w) (h' : Filled Q w) :
    Filled (fun s r => P s r ∧ Q s r) w where
  current hf := ⟨h.current hf, h'.current hf⟩
  heard i t call a hcall hphase ha f hf :=
    ⟨h.heard i t call a hcall hphase ha f hf, h'.heard i t call a hcall hphase ha f hf⟩

/-- So much is known of the record in a slot. -/
theorem Filled.ready {P : Slot → Record → Prop} (h : Filled P w) {k : Key} {f : Filed}
    (hready : w.cache.content? k = some (.ready f)) : P k.slot f.record :=
  h.current (by rw [Cache.current?, hready]; rfl)

/-- What one move preserves: the property is that of each record that is computed or put into a
slot. -/
theorem filled_apply {P : Slot → Record → Prop} (hw : Sound w) (h : Filled P w)
    (hland : ∀ {j t : Nat} {leader : Call} {d : Option Filed} {r : Record},
      m = .finish j (.ok r) → w.calls[j]? = some leader → leader.phase = .computing t d →
      P leader.key.slot r)
    (hput : ∀ {r : Record}, m = .replace r → P r.key.slot r) : Filled P (w.apply m) where
  -- A current record was current before, or this move stored it: its compute landed in time, or it
  -- was put there.
  current := by
    intro k f hf
    rw [current?_apply hw] at hf
    cases m with
    | finish j result =>
      cases result with
      | error e => exact h.current hf
      | ok r =>
        cases hh : w.holding? j with
        | none =>
          simp only [currentAfter, hh] at hf
          exact h.current hf
        | some held =>
          obtain ⟨l, t⟩ := held
          simp only [currentAfter, hh] at hf
          split at hf
          · next hk =>
            cases hf
            obtain ⟨leader, d, hleader, rfl, hleads⟩ := computing_of_holding? hh
            rw [Key.same_iff.1 hk]
            exact hland rfl hleader hleads
          · exact h.current hf
    | replace r =>
      simp only [currentAfter] at hf
      split at hf
      · next hk =>
        cases hf
        rw [Key.same_iff.1 hk]
        exact hput rfl
      · exact h.current hf
    | invalidate file =>
      simp only [currentAfter] at hf
      split at hf
      · cases hf
      · exact h.current hf
    | invalidateKey l =>
      simp only [currentAfter] at hf
      split at hf
      · cases hf
      · exact h.current hf
    | clear => cases hf
    | _ => exact h.current hf
  -- A record that is heard was announced by the leader of the compute, for the same slot.
  heard := by
    refine hears_step hw (step_apply w m) h.heard ?_
    intro i j t call leader d a hcall hphase hleader hleads hreleases f hf
    rw [← hw.paired hcall hphase hleader hleads]
    cases hreleases with
    | land r =>
      cases hf
      exact hland rfl hleader hleads
    | fail e => exact absurd hf (leader.failureAnnouncement_ne_record e f)
    | quit => cases hf

/-! ## Resuming -/

/-- What a call that has not returned comes to when it is resumed. -/
inductive Reaches (w : Workbench) (call : Call) : Phase → Prop where
  | waiting {t : Nat} : Reaches w call (.waiting t)
  /-- It has taken the next ticket. -/
  | computing {d : Option Filed} (hintent : call.intent ≠ .settle) :
      Reaches w call (.computing w.cache.nextTicket d)
  /-- It has found a record that it takes. -/
  | found {f : Filed} (hready : w.cache.content? call.key = some (.ready f))
      (haccepts : call.reuse.accepts f.record) : Reaches w call (.returned (.record f))
  /-- It was told a record that it takes. -/
  | told {t : Nat} {f : Filed} (hphase : call.phase = .waiting t)
      (ha : w.cache.announcement? t = some (.record f)) (haccepts : call.reuse.accepts f.record) :
      Reaches w call (.returned (.record f))
  /-- It was told an error. -/
  | refused {t : Nat} {e : BuildError} (hphase : call.phase = .waiting t)
      (ha : w.cache.announcement? t = some (.failure e)) (hintent : call.intent ≠ .recompute) :
      Reaches w call (.returned (.failure e))
  | absent (hintent : call.intent = .settle) : Reaches w call (.returned .absent)

/-- A call that is open when it is resumed reaches what it is resumed to. -/
theorem reaches_resume (hcall : w.calls[i]? = some call)
    (hopen : call.phase = .arriving ∨ ∃ t, call.phase = .waiting t) :
    ∃ p, (w.apply (.resume i)).calls[i]? = some (call.atPhase p) ∧ Reaches w call p := by
  obtain ⟨p, hturn, hp⟩ := call.turn_resume w.cache i
  refine ⟨p, ?_, ?_⟩
  · simp only [apply, hcall, hp]
    rw [calls_update hcall, if_pos rfl]
  generalize (call.resume w.cache).1 = c at hturn
  cases hturn with
  | rest hidle =>
    -- A call that has not looked yet can go on, so this one still waits.
    rcases hopen with harrives | ⟨t, hwaits⟩
    · have hruns := hidle rfl
      rw [Call.isRunnable, harrives] at hruns
      cases hruns
    · rw [hwaits]
      exact .waiting
  | hit hlook hready haccepts => exact .found hready haccepts
  | miss hlook hvacant hintent => exact .absent hintent
  | wait => exact .waiting
  | lead hlook hfree hintent => exact .computing hintent
  | hear hphase ha hheard =>
    rcases Call.heard?_eq_some_iff.1 hheard with ⟨hintent, ⟨f, rfl, haccepts, rfl⟩ | ⟨e, rfl, rfl⟩⟩
    · exact .told hphase ha haccepts
    · exact .refused hphase ha hintent

end Workbench

end HotComponents
