import HotComponents.Proofs.Cache.Current

/-!
# Caches without a compile under way

When no slot is pending, every slot holds its current record, and a call for a new record computes
at once. From such a cache on, one compile for the browser at a time begins and ends, and slots of
the server are emptied: then the server's other slots stay as they are, and the browser loses no
record.

* `Cache.Swept`: what a cache is left with in that course, with one lemma for each thing that
  happens in it;
* `Cache.idle_redeem`, `Cache.idle_surrender`: the end of the only compile leaves no slot pending;
* `Workbench.recompute_of_idle`: a call for a new record meets no other.
-/

namespace HotComponents

/-- A slot of the server is none of the browser's. -/
theorem Key.slot_ne {k l : Key} (hk : k.target = .ssr) (hl : l.target = .dom) :
    k.slot ≠ l.slot := by
  intro heq
  have htarget : k.target = l.target := congrArg Prod.snd heq
  rw [hk, hl] at htarget
  cases htarget

namespace Cache

variable {c c' c'' : Cache} {gone : Key → Bool} {k l : Key}

/-- No slot is pending. -/
def Idle (c : Cache) : Prop :=
  ∀ (k : Key) (t : Nat) (d : Option Filed), c.content? k ≠ some (.pending t d)

/-- What a cache is left with when some slots of the server were emptied and compiles for the
browser have begun and ended: the server's other slots are as they were, and the browser has lost
no record. -/
structure Swept (c : Cache) (gone : Key → Bool) (c' : Cache) : Prop where
  server : ∀ {k : Key}, k.target = .ssr →
    c'.content? k = if gone k then none else c.content? k
  browser : ∀ {k : Key}, k.target = .dom → (c.current? k).isSome → (c'.current? k).isSome

/-- What leaves the server's slots alone and loses no record of the browser's. -/
theorem Swept.keep (h : Swept c gone c')
    (hserver : ∀ {k : Key}, k.target = .ssr → c''.content? k = c'.content? k)
    (hbrowser : ∀ {k : Key}, k.target = .dom → (c'.current? k).isSome → (c''.current? k).isSome) :
    Swept c gone c'' where
  server hk := (hserver hk).trans (h.server hk)
  browser hk hcurrent := hbrowser hk (h.browser hk hcurrent)

/-- One more slot of the server is emptied. -/
theorem Swept.drop (h : Swept c gone c') (hl : l.target = .ssr) :
    Swept c (fun k => gone k || l.same k) (c'.invalidateKey l) where
  server := by
    intro k hk
    rw [content?_invalidateKey, h.server hk]
    -- The slot is the one that is emptied, or it is as it was.
    by_cases hslot : k.slot = l.slot
    · have hsame : l.same k := Key.same_iff.2 hslot.symm
      rw [if_pos hslot, hsame, Bool.or_true, if_pos rfl]
    · have hother : l.same k = false := by
        rw [← Bool.not_eq_true, Key.same_iff]
        exact Ne.symm hslot
      rw [if_neg hslot, hother, Bool.or_false]
  browser := by
    intro k hk hcurrent
    rw [current?, content?_invalidateKey, if_neg (Ne.symm (Key.slot_ne hl hk))]
    exact h.browser hk hcurrent

/-- A compile for the browser begins. -/
theorem Swept.issue (h : Swept c gone c') (hl : l.target = .dom) :
    Swept c gone (c'.issue l (c'.current? l)) := by
  refine h.keep (fun {k} hk => ?_) fun {k} _ hcurrent => ?_
  · rw [content?_issue, if_neg (Key.slot_ne hk hl)]
  · rw [current?, content?_issue]
    split
    · next hslot =>
      rw [current?, content?_congr hslot] at hcurrent
      exact hcurrent
    · exact hcurrent

/-- A compile for the browser ends in a record. -/
theorem Swept.redeem (h : Swept c gone c') (hl : l.target = .dom) (t : Nat) (r : Record) :
    Swept c gone (c'.redeem l t r) := by
  refine h.keep (fun {k} hk => ?_) fun {k} _ hcurrent => ?_
  · rw [content?_redeem, if_neg (fun hand => Key.slot_ne hk hl hand.2)]
  · rw [current?_redeem]
    split
    · rfl
    · exact hcurrent

/-- A compile for the browser comes to nothing. -/
theorem Swept.surrender (h : Swept c gone c') (hl : l.target = .dom) {t : Nat} {d : Option Filed}
    (hpending : c'.content? l = some (.pending t d)) : Swept c gone (c'.surrender l t d) := by
  refine h.keep (fun {k} hk => ?_) fun {k} _ hcurrent => ?_
  · rw [content?_surrender, if_neg (fun hand => Key.slot_ne hk hl hand.2)]
  · -- The record that was displaced for the compile comes back, and it was the current one.
    have hdisplaced : c'.isPending l t → c'.current? l = d := by
      intro _
      rw [current?, hpending]
      rfl
    rwa [current?_surrender hdisplaced]

/-- Nothing is pending behind an edit that was not before. -/
theorem Idle.invalidateKey (h : c.Idle) (l : Key) : (c.invalidateKey l).Idle := by
  intro k t d hp
  rw [content?_invalidateKey] at hp
  split at hp
  · cases hp
  · exact h k t d hp

/-- A slot that is not pending holds its current record. -/
theorem Idle.content?_eq (h : c.Idle) (k : Key) : c.content? k = (c.current? k).map .ready := by
  rw [current?]
  cases hcontent : c.content? k with
  | none => rfl
  | some content =>
    cases content with
    | ready f => rfl
    | pending t d => exact absurd hcontent (h k t d)

/-- What a slot that is not pending shows is its current record. -/
theorem Idle.peek_eq (h : c.Idle) (k : Key) : c.peek k = (c.current? k).map Filed.record := by
  rw [peek, h.content?_eq]
  cases c.current? k with
  | none => rfl
  | some f => rfl

/-- A cache is idle if all its entries are records, which can be looked up. -/
theorem idle_of_all (h : c.slots.all fun entry => match entry.2 with
    | .ready _ => true
    | .pending _ _ => false) : c.Idle := by
  intro k t d hp
  obtain ⟨entry, hfind, hcontent⟩ := Option.map_eq_some_iff.1 hp
  have hready := List.all_eq_true.1 h entry (List.mem_of_find?_eq_some hfind)
  simp [hcontent] at hready

/-- When the only compile ends in a record, no slot is pending. -/
theorem idle_redeem {t : Nat} {d : Option Filed}
    (hpending : c.content? l = some (.pending t d))
    (honly : ∀ (k : Key) (t : Nat) (d : Option Filed), c.content? k = some (.pending t d) →
      k.slot = l.slot) (r : Record) : (c.redeem l t r).Idle := by
  intro k t' d' hp
  rw [content?_redeem] at hp
  -- The slot of the compile is ready behind it, and no other one was pending.
  split at hp
  · cases hp
  · next hand => exact hand ⟨isPending_iff.2 ⟨d, hpending⟩, honly k t' d' hp⟩

/-- When the only compile comes to nothing, no slot is pending. -/
theorem idle_surrender {t : Nat} {d : Option Filed}
    (hpending : c.content? l = some (.pending t d))
    (honly : ∀ (k : Key) (t : Nat) (d : Option Filed), c.content? k = some (.pending t d) →
      k.slot = l.slot) : (c.surrender l t d).Idle := by
  intro k t' d' hp
  rw [content?_surrender] at hp
  split at hp
  · cases d <;> cases hp
  · next hand => exact hand ⟨isPending_iff.2 ⟨d, hpending⟩, honly k t' d' hp⟩

end Cache

/-- Where no slot is pending, a call for a new record computes as soon as it is resumed. -/
theorem Workbench.recompute_of_idle {w : Workbench} (hidle : w.cache.Idle) (key : Key) :
    (w.apply (.make key .recompute)).apply (.resume w.calls.length) =
      ⟨w.cache.issue key (w.cache.current? key), w.calls ++
        [⟨key, .recompute, .computing w.cache.nextTicket (w.cache.current? key)⟩]⟩ := by
  have hcontent := hidle.content?_eq key
  -- It finds a free slot and takes no record, so it leads.
  have hclaim : w.cache.claim key .never =
      (w.cache.issue key (w.cache.current? key),
        .lead w.cache.nextTicket (w.cache.current? key)) := by
    unfold Cache.claim
    cases hcurrent : w.cache.current? key with
    | none => simp only [hcontent, hcurrent, Option.map_none]
    | some f =>
      simp only [hcontent, hcurrent, Option.map_some, Reuse.accepts, Bool.false_eq_true, if_false]
  simp [apply, Call.resume, Call.look, Call.reuse, hclaim, update, Call.atPhase]

end HotComponents
