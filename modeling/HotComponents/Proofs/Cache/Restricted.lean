import HotComponents.Proofs.Cache.Alike
import HotComponents.Proofs.Cache.Provenance
import HotComponents.Proofs.Cache.TurnsLeft

/-!
# A workbench restricted to one slot

The calls for one slot are numbered among themselves. A workbench with calls for many slots is alike,
for one of them, to a workbench with the calls for that slot only, if the caches are alike for the
slot and the calls with equal numbers have come equally far.

* `Workbench.Alike.resume`, `Workbench.Alike.finish`, `Workbench.Alike.cancel`: what calls with equal
  numbers do keeps the workbenches alike;
* `Workbench.Alike.aside_step`: what happens to other slots does so too.
-/

namespace HotComponents

namespace Workbench

variable {R R' : Tickets} {k : Key} {w w' w₁ : Workbench} {m : Move} {n i : Nat}
  {call call' call₁ : Call} {c : Cache}

/-- The numbers of the calls for the slot of a key, in order. -/
def numbers (w : Workbench) (k : Key) : List Nat :=
  (List.range w.calls.length).filter fun i => w.calls[i]?.any (·.key.same k)

/-- The numbers are those of the calls for the slot. -/
theorem mem_numbers :
    i ∈ w.numbers k ↔ ∃ call, w.calls[i]? = some call ∧ call.key.slot = k.slot := by
  simp only [numbers, List.mem_filter, List.mem_range, Option.any_eq_true, Key.same_iff]
  constructor
  · exact And.right
  · rintro ⟨call, hcall, hslot⟩
    exact ⟨(List.getElem?_eq_some_iff.1 hcall).1, call, hcall, hslot⟩

/-- Each number occurs once. -/
theorem nodup_numbers (w : Workbench) (k : Key) : (w.numbers k).Nodup :=
  List.nodup_range.filter _

/-- So a call has one place among the calls for its slot. -/
theorem numbers_inj {n' : Nat} (hn : (w.numbers k)[n]? = some i)
    (hn' : (w.numbers k)[n']? = some i) : n = n' :=
  (List.getElem?_inj (List.getElem?_eq_some_iff.1 hn).1 (nodup_numbers w k)).1 (hn.trans hn'.symm)

/-- A call that moves keeps its number. -/
theorem numbers_update (hcall : w.calls[i]? = some call) (hkey : call₁.key = call.key) (c : Cache)
    (k : Key) : (w.update i c call₁).numbers k = w.numbers k := by
  have hlength : (w.update i c call₁).calls.length = w.calls.length := List.length_set
  unfold numbers
  rw [hlength]
  refine List.filter_congr fun j _ => ?_
  rw [calls_update hcall]
  split
  · next hij => simp [← hij, hcall, hkey]
  · rfl

/-- A move that makes no call leaves the numbers as they are. -/
theorem numbers_apply (w : Workbench) (hm : m.makesNone) (k : Key) :
    (w.apply m).numbers k = w.numbers k := by
  have hstep := step_apply w m
  generalize w.apply m = w₁ at hstep
  cases hstep with
  | idle => rfl
  | edit => rfl
  | make => cases hm
  | @turn _ i call c p hcall => exact numbers_update hcall (call.key_atPhase p) c k

/-- A run without new calls keeps all numbers. -/
theorem numbers_run (w : Workbench) {moves : List Move} (hmoves : ∀ m ∈ moves, m.makesNone)
    (k : Key) : (w.run moves).numbers k = w.numbers k :=
  List.foldlRecOn (motive := fun w' : Workbench => w'.numbers k = w.numbers k) moves apply rfl
    fun w' hw' m hm => (w'.numbers_apply (hmoves m hm) k).trans hw'

/-- A new call has a new number, under its own slot. -/
theorem numbers_make (w : Workbench) (key : Key) (intent : Intent) (k : Key) :
    (w.apply (.make key intent)).numbers k =
      w.numbers k ++ if key.same k then [w.calls.length] else [] := by
  simp only [numbers, apply, List.length_append, List.length_singleton, List.range_succ,
    List.filter_append]
  congr 1
  · refine List.filter_congr fun j hj => ?_
    rw [List.getElem?_append_left (List.mem_range.1 hj)]
  · rw [List.filter_cons, List.getElem?_concat_length]
    rfl

/-- A move of a call that is not there does nothing. -/
theorem apply_of_no_call (hm : m.call? = some i) (hcall : w.calls[i]? = none) : w.apply m = w := by
  cases m <;> cases hm <;> simp only [apply, hcall]

/-- The second workbench has the calls of the first one for a slot, and no others; and nobody who
asks for that slot can tell the two apart. -/
structure Alike (R : Tickets) (k : Key) (w w' : Workbench) : Prop where
  cache : Cache.Alike R k w.cache w'.cache
  length : w'.calls.length = (w.numbers k).length
  calls : ∀ {n i : Nat}, (w.numbers k)[n]? = some i →
    ∃ call call', w.calls[i]? = some call ∧ w'.calls[n]? = some call' ∧ call.Alike R call'
  /-- Tickets that correspond to others are held for the slot only. -/
  own : ∀ {i t t' : Nat} {call : Call} {d : Option Filed}, w.calls[i]? = some call →
    call.phase = .computing t d → R t t' → call.key.slot = k.slot
  sound : Sound w
  sound' : Sound w'

/-- Nothing is announced yet of the ticket that comes next. -/
theorem unheard_next (hw : Sound w) : w.cache.announcement? w.cache.nextTicket = none := by
  cases ha : w.cache.announcement? w.cache.nextTicket with
  | none => rfl
  | some a => exact absurd (hw.announcedIssued ha) (Nat.lt_irrefl _)

namespace Alike

/-- All calls of the second workbench are for the slot. -/
theorem slot_eq (h : Alike R k w w') (hcall : w'.calls[n]? = some call') :
    call'.key.slot = k.slot := by
  have hn : n < (w.numbers k).length := h.length ▸ (List.getElem?_eq_some_iff.1 hcall).1
  obtain ⟨call, call'', hfull, halone, halike⟩ := h.calls (List.getElem?_eq_getElem hn)
  cases hcall.symm.trans halone
  obtain ⟨_, hfull', hslot⟩ := mem_numbers.1 (List.getElem_mem hn)
  cases hfull.symm.trans hfull'
  rw [halike.key, hslot]

/-- So they are numbered from the first to the last. -/
theorem numbers_eq (h : Alike R k w w') : w'.numbers k = List.range w'.calls.length := by
  refine List.filter_eq_self.2 fun j hj => ?_
  have hcall := List.getElem?_eq_getElem (List.mem_range.1 hj)
  rw [hcall, Option.any_some, Key.same_iff]
  exact h.slot_eq hcall

/-- Two calls with equal numbers take a turn. -/
theorem update (h : Alike R k w w') (hn : (w.numbers k)[n]? = some i)
    (hcall : w.calls[i]? = some call) (hcall' : w'.calls[n]? = some call')
    (hgrows : R.Grows R' w.cache w'.cache) {c c' : Cache} {call₁ call₁' : Call}
    (hkey : call₁.key = call.key) (hcache : Cache.Alike R' k c c') (halike : call₁.Alike R' call₁')
    (hsound : Sound (w.update i c call₁)) (hsound' : Sound (w'.update n c' call₁')) :
    Alike R' k (w.update i c call₁) (w'.update n c' call₁') where
  cache := hcache
  length := by
    rw [numbers_update hcall hkey, ← h.length]
    exact List.length_set
  calls {n' i'} hn' := by
    rw [numbers_update hcall hkey] at hn'
    rw [calls_update hcall, calls_update hcall']
    by_cases hni : n = n'
    · subst hni
      cases hn.symm.trans hn'
      exact ⟨call₁, call₁', if_pos rfl, if_pos rfl, halike⟩
    · have hii : i ≠ i' := by
        rintro rfl
        exact hni (numbers_inj hn hn')
      rw [if_neg hni, if_neg hii]
      obtain ⟨x, x', hx, hx', hxx⟩ := h.calls hn'
      exact ⟨x, x', hx, hx', hxx.mono hgrows.mono⟩
  own {j t t' x d} hx hphase ht := by
    rw [calls_update hcall] at hx
    split at hx
    · cases hx
      obtain ⟨y, hy, hslot⟩ := mem_numbers.1 (List.mem_of_getElem? hn)
      cases hcall.symm.trans hy
      rw [hkey, hslot]
    · -- Another call does not hold the ticket that may just have been issued.
      rcases hgrows with rfl | rfl
      · exact h.own hx hphase ht
      · rcases ht with ht | ⟨rfl, _⟩
        · exact h.own hx hphase ht
        · exact absurd (h.sound.computingIssued hx hphase) (Nat.lt_irrefl _)
  sound := hsound
  sound' := hsound'

/-! ## What happens to the slot -/

/-- The same is done with the calls of equal numbers, and calls that are alike do alike. -/
theorem both (h : Alike R k w w') (hn : (w.numbers k)[n]? = some i) {m' : Move}
    (f : Call → Cache → Cache × Call) (hkey : ∀ call c, (f call c).2.key = call.key)
    (hm : ∀ {call}, w.calls[i]? = some call →
      w.apply m = w.update i (f call w.cache).1 (f call w.cache).2)
    (hm' : ∀ {call'}, w'.calls[n]? = some call' →
      w'.apply m' = w'.update n (f call' w'.cache).1 (f call' w'.cache).2)
    (halike : ∀ {call call'}, Cache.Alike R call.key w.cache w'.cache → call.Alike R call' →
      ∃ R' : Tickets, R.Grows R' w.cache w'.cache ∧
        Cache.Alike R' call.key (f call w.cache).1 (f call' w'.cache).1 ∧
        (f call w.cache).2.Alike R' (f call' w'.cache).2) :
    ∃ R', Alike R' k (w.apply m) (w'.apply m') := by
  obtain ⟨call, call', hcall, hcall', hcalls⟩ := h.calls hn
  obtain ⟨_, hcall₂, hslot⟩ := mem_numbers.1 (List.mem_of_getElem? hn)
  cases hcall.symm.trans hcall₂
  obtain ⟨R', hgrows, hcache, hcalls'⟩ := halike (h.cache.congr hslot) hcalls
  have hsound := sound_step h.sound (step_apply w m)
  have hsound' := sound_step h.sound' (step_apply w' m')
  rw [hm hcall] at hsound ⊢
  rw [hm' hcall'] at hsound' ⊢
  exact ⟨R', h.update hn hcall hcall' hgrows (hkey call w.cache) (hcache.congr hslot.symm) hcalls'
    hsound hsound'⟩

/-- They go on as far as they can. -/
theorem resume (h : Alike R k w w') (hn : (w.numbers k)[n]? = some i) :
    ∃ R', Alike R' k (w.apply (.resume i)) (w'.apply (.resume n)) := by
  refine h.both hn (fun call c => ((call.resume c).1, (call.resume c).2.1)) (fun call c => ?_)
    (fun hcall => by simp only [apply, hcall]) (fun hcall' => by simp only [apply, hcall'])
    fun hcache hcalls => Call.resume_alike hcache hcalls (unheard_next h.sound)
      (unheard_next h.sound')
  obtain ⟨p, _, hp⟩ := call.turn_resume c i
  simp only [hp, Call.key_atPhase]

/-- Their computes end. -/
theorem finish (h : Alike R k w w') (hn : (w.numbers k)[n]? = some i)
    (result : Except BuildError Record) :
    ∃ R', Alike R' k (w.apply (.finish i result)) (w'.apply (.finish n result)) := by
  refine h.both hn (fun call c => ((call.finish c result).1, (call.finish c result).2.1))
    (fun call c => ?_) (fun hcall => by simp only [apply, hcall])
    (fun hcall' => by simp only [apply, hcall'])
    fun hcache hcalls => ⟨R, .inl rfl, Call.finish_alike hcache hcalls result⟩
  obtain ⟨p, _, hp⟩ := call.turn_finish c i result
  simp only [hp, Call.key_atPhase]

/-- They are given up. -/
theorem cancel (h : Alike R k w w') (hn : (w.numbers k)[n]? = some i) :
    ∃ R', Alike R' k (w.apply (.cancel i)) (w'.apply (.cancel n)) := by
  refine h.both hn Call.cancel (fun call c => ?_) (fun hcall => by simp only [apply, hcall])
    (fun hcall' => by simp only [apply, hcall'])
    fun hcache hcalls => ⟨R, .inl rfl, Call.cancel_alike hcache hcalls⟩
  obtain ⟨p, _, hp⟩ := call.turn_cancel c i
  rw [hp, Call.key_atPhase]

/-- The caches are changed directly, in the same way. -/
theorem edit (h : Alike R k w w') (hm : m.isEdit) : Alike R k (w.apply m) (w'.apply m) := by
  have hsound := sound_step h.sound (step_apply w m)
  have hsound' := sound_step h.sound' (step_apply w' m)
  rw [apply_of_isEdit hm] at hsound ⊢
  rw [apply_of_isEdit hm] at hsound' ⊢
  exact ⟨h.cache.edit m, h.length, h.calls, h.own, hsound, hsound'⟩

/-- A call for the slot is made in both. -/
theorem make (h : Alike R k w w') {key : Key} (hkey : key.slot = k.slot) (intent : Intent) :
    Alike R k (w.apply (.make key intent)) (w'.apply (.make key intent)) where
  cache := h.cache
  length := by
    rw [numbers_make, if_pos (Key.same_iff.2 hkey)]
    simp [apply, h.length]
  calls {n i} hn := by
    rw [numbers_make, if_pos (Key.same_iff.2 hkey)] at hn
    simp only [apply]
    rcases Nat.lt_or_ge n (w.numbers k).length with hlt | hge
    · rw [List.getElem?_append_left hlt] at hn
      obtain ⟨call, call', hcall, hcall', halike⟩ := h.calls hn
      refine ⟨call, call', ?_, ?_, halike⟩
      · rwa [List.getElem?_append_left (List.getElem?_eq_some_iff.1 hcall).1]
      · rwa [List.getElem?_append_left (List.getElem?_eq_some_iff.1 hcall').1]
    · -- The new calls are the last ones on either side.
      rw [List.getElem?_append_right hge] at hn
      obtain ⟨hlen, hi⟩ := List.getElem?_eq_some_iff.1 hn
      simp only [List.length_singleton] at hlen
      simp only [List.getElem_singleton] at hi
      obtain rfl : n = w'.calls.length := by rw [h.length]; omega
      exact ⟨_, _, hi ▸ List.getElem?_concat_length, List.getElem?_concat_length, rfl, rfl,
        .arriving⟩
  own hcall hphase ht := by
    rcases computing_step (step_apply w (.make key intent)) hcall hphase with hold | ⟨hm, _⟩
    · exact h.own hold hphase ht
    · cases hm
  sound := sound_step h.sound (step_apply w _)
  sound' := sound_step h.sound' (step_apply w' _)

/-! ## What happens elsewhere -/

/-- A step of the first workbench that leaves the calls for the slot as they are. -/
theorem aside_step (h : Alike R k w w') (hstep : Step w m w₁)
    (hcache : Cache.Alike R k w₁.cache w'.cache) (hnumbers : w₁.numbers k = w.numbers k)
    (hcalls : ∀ i ∈ w.numbers k, w₁.calls[i]? = w.calls[i]?) : Alike R k w₁ w' where
  cache := hcache
  length := hnumbers ▸ h.length
  calls {n i} hn := by
    rw [hnumbers] at hn
    rw [hcalls i (List.mem_of_getElem? hn)]
    exact h.calls hn
  own hcall hphase ht := by
    rcases computing_step hstep hcall hphase with hold | ⟨_, rfl, _⟩
    · exact h.own hold hphase ht
    · exact absurd (h.cache.issued ht).1 (Nat.lt_irrefl _)
  sound := sound_step h.sound hstep
  sound' := h.sound'

/-- A new call for another slot does not matter. -/
theorem aside_make (h : Alike R k w w') {key : Key} (hkey : key.slot ≠ k.slot) (intent : Intent) :
    Alike R k (w.apply (.make key intent)) w' := by
  refine h.aside_step (step_apply w _) h.cache ?_ fun i hi => ?_
  · rw [numbers_make, if_neg (fun hsame => hkey (Key.same_iff.1 hsame)), List.append_nil]
  · obtain ⟨call, hcall, _⟩ := mem_numbers.1 hi
    exact List.getElem?_append_left (List.getElem?_eq_some_iff.1 hcall).1

/-- Nor does an edit that touches other slots. -/
theorem aside_edit (h : Alike R k w w') (hm : m.isEdit) (htouch : m.touches k = false) :
    Alike R k (w.apply m) w' := by
  refine h.aside_step (step_apply w m) ?_ ?_ fun i _ => ?_
  all_goals rw [apply_of_isEdit hm]
  · exact h.cache.aside_edit htouch
  · rfl

/-- Neither does a turn of a call for another slot. -/
theorem aside_turn (h : Alike R k w w') (hm : m.call? = some i) (hi : i ∉ w.numbers k) :
    Alike R k (w.apply m) w' := by
  cases hcall : w.calls[i]? with
  | none => rwa [apply_of_no_call hm hcall]
  | some call =>
    have hslot : k.slot ≠ call.key.slot := fun heq => hi (mem_numbers.2 ⟨call, hcall, heq.symm⟩)
    obtain ⟨c, p, heq, hturn⟩ := exists_turn hm hcall
    refine h.aside_step (step_apply w m) ?_ ?_ fun j hj => ?_
    all_goals rw [heq]
    · exact h.cache.aside_turn hslot
        (fun hphase ht => hslot (h.own hcall hphase ht).symm) hturn
    · exact numbers_update hcall (call.key_atPhase p) c k
    · rw [calls_update hcall, if_neg]
      rintro rfl
      exact hi hj

end Alike

end Workbench

end HotComponents
