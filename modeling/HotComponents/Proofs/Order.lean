import HotComponents.Key
import Mathlib.Data.List.Sort

/-!
# The order of paths and keys

Paths are ordered component by component. Keys are ordered by their files, and of two keys for one
file the one for the browser comes first. Both orders are total up to sameness, so a list in
ascending order holds its paths or slots in the only possible order.

* `FilePath.before_trans`, `FilePath.before_or_before`: paths are strictly and totally ordered;
* `FilePath.not_before_trans`, `FilePath.not_before_total`: what it takes to sort paths;
* `FilePath.map_components_eq_of_ascending`: ascending lists of the same paths agree;
* `Key.notAfter_trans`, `Key.notAfter_total`: what it takes to sort keys;
* `Key.before_of_notAfter`: sorted keys for different slots are strictly ascending;
* `Key.Before.slot_ne`, `Key.Before.trans`: the strict order of keys goes one way only.
-/

namespace HotComponents

namespace FilePath

variable {p q r : FilePath}

theorem before_iff : p.before q ↔ p.orderKey < q.orderKey := by
  simp [before]

theorem before_trans (hpq : p.before q) (hqr : q.before r) : p.before r := by
  rw [before_iff] at hpq hqr ⊢
  exact List.lt_trans hpq hqr

theorem orderKey_congr (h : p.components = q.components) : p.orderKey = q.orderKey := by
  rw [orderKey, orderKey, h]

/-- A path does not come before one that is the same. -/
theorem components_ne_of_before (h : p.before q) : p.components ≠ q.components := by
  intro heq
  rw [before_iff, orderKey_congr heq] at h
  exact List.lt_irrefl _ h

theorem not_before_of_before (h : p.before q) : !q.before p := by
  rw [Bool.not_eq_true', ← Bool.not_eq_true]
  intro hback
  exact components_ne_of_before (before_trans h hback) rfl

/-- Of two different paths one comes before the other. -/
theorem before_or_before (h : p.components ≠ q.components) : p.before q ∨ q.before p := by
  rw [before_iff, before_iff]
  by_cases hpq : p.orderKey < q.orderKey
  · exact .inl hpq
  · by_cases hqp : q.orderKey < p.orderKey
    · exact .inr hqp
    · -- Neither is below the other, so the order keys agree, and with them the components.
      have heq : p.orderKey = q.orderKey :=
        List.le_antisymm (List.not_lt.1 hqp) (List.not_lt.1 hpq)
      exact absurd (orderKey_injective heq) h

/-- The order by which paths are sorted: the second one does not come before the first. -/
theorem not_before_trans (hpq : !q.before p) (hqr : !r.before q) : !r.before p := by
  simp only [before, Bool.not_eq_true', decide_eq_false_iff_not, List.not_lt] at *
  exact List.le_trans hpq hqr

theorem not_before_total (p q : FilePath) : (!q.before p || !p.before q) = true := by
  simp only [before, Bool.or_eq_true, Bool.not_eq_true', decide_eq_false_iff_not, List.not_lt]
  exact List.le_total _ _

/-- Paths with the same order keys, one by one, have the same components. -/
theorem map_components_eq_of_map_orderKey {ps qs : List FilePath}
    (h : ps.map orderKey = qs.map orderKey) : ps.map components = qs.map components := by
  have hkeys (rs : List FilePath) :
      rs.map orderKey = (rs.map components).map (List.map Component.orderKey) := by
    rw [List.map_map]
    rfl
  have hinjective : Function.Injective (List.map Component.orderKey) :=
    List.map_injective_iff.2 fun _ _ => Component.orderKey_injective
  rw [hkeys, hkeys] at h
  exact List.map_injective_iff.2 hinjective h

/-- Which paths are in a list determines it up to sameness, if it is in strictly ascending order. -/
theorem map_components_eq_of_ascending {ps qs : List FilePath}
    (hps : ps.Pairwise fun p q => p.before q) (hqs : qs.Pairwise fun p q => p.before q)
    (hsame : ∀ p : FilePath,
      (∃ q ∈ ps, q.components = p.components) ↔ ∃ q ∈ qs, q.components = p.components) :
    ps.map components = qs.map components := by
  have hascending {rs : List FilePath} (hrs : rs.Pairwise fun p q => p.before q) :
      (rs.map orderKey).Pairwise (· < ·) :=
    List.pairwise_map.2 (hrs.imp before_iff.1)
  have hmem {rs rs' : List FilePath}
      (hsub : ∀ p : FilePath, (∃ q ∈ rs, q.components = p.components) →
        ∃ q ∈ rs', q.components = p.components) :
      ∀ key ∈ rs.map orderKey, key ∈ rs'.map orderKey := by
    intro key hkey
    obtain ⟨p, hp, rfl⟩ := List.mem_map.1 hkey
    obtain ⟨q, hq, heq⟩ := hsub p ⟨p, hp, rfl⟩
    exact List.mem_map.2 ⟨q, hq, orderKey_congr heq⟩
  refine map_components_eq_of_map_orderKey ?_
  exact (hascending hps).eq_of_mem_iff (hascending hqs) fun key =>
    ⟨hmem (fun p => (hsame p).1) key, hmem (fun p => (hsame p).2) key⟩

end FilePath

namespace Key

variable {k l m : Key}

/-- The key comes strictly before the other one: its file does, or both are for one file and it is
the one for the browser. -/
def Before (k l : Key) : Prop :=
  k.file.before l.file ∨
    k.file.components = l.file.components ∧ k.target = .dom ∧ l.target = .ssr

theorem notAfter_iff :
    k.notAfter l ↔ k.file.before l.file ∨
      k.file.components = l.file.components ∧ k.target.rank ≤ l.target.rank := by
  have hfile : k.file.orderKey = l.file.orderKey ↔ k.file.components = l.file.components :=
    ⟨FilePath.orderKey_injective, FilePath.orderKey_congr⟩
  simp [notAfter, FilePath.before_iff, hfile]

theorem notAfter_trans (hkl : k.notAfter l) (hlm : l.notAfter m) : k.notAfter m := by
  rw [notAfter_iff] at hkl hlm ⊢
  rcases hkl with hkl | ⟨hkl, hrank⟩
  · left
    rcases hlm with hlm | ⟨hlm, _⟩
    · exact FilePath.before_trans hkl hlm
    · rw [FilePath.before_iff] at hkl ⊢
      rwa [← FilePath.orderKey_congr hlm]
  · rcases hlm with hlm | ⟨hlm, hrank'⟩
    · left
      rw [FilePath.before_iff] at hlm ⊢
      rwa [FilePath.orderKey_congr hkl]
    · exact .inr ⟨hkl.trans hlm, Nat.le_trans hrank hrank'⟩

theorem notAfter_total (k l : Key) : k.notAfter l ∨ l.notAfter k := by
  rw [notAfter_iff, notAfter_iff]
  by_cases hfile : k.file.components = l.file.components
  · rcases Nat.le_total k.target.rank l.target.rank with hrank | hrank
    · exact .inl (.inr ⟨hfile, hrank⟩)
    · exact .inr (.inr ⟨hfile.symm, hrank⟩)
  · exact (FilePath.before_or_before hfile).imp .inl .inl

/-- Of two keys in order that name different slots the first comes strictly before the second. -/
theorem before_of_notAfter (h : k.notAfter l) (hne : k.slot ≠ l.slot) : k.Before l := by
  rw [notAfter_iff] at h
  rcases h with hfile | ⟨hfile, hrank⟩
  · exact .inl hfile
  · right
    have htarget : k.target ≠ l.target := by
      intro htarget
      exact hne (Prod.ext hfile htarget)
    -- Two targets that differ and are in order are the browser and the server.
    cases hk : k.target <;> cases hl : l.target <;>
      simp_all [Target.rank]

/-- A key that comes strictly before another one names another slot. -/
theorem Before.slot_ne (h : k.Before l) : k.slot ≠ l.slot := by
  intro hslot
  rcases h with hfile | ⟨_, hbrowser, hserver⟩
  · exact FilePath.components_ne_of_before hfile (congrArg Prod.fst hslot)
  · have htarget : k.target = l.target := congrArg Prod.snd hslot
    rw [hbrowser, hserver] at htarget
    cases htarget

theorem Before.trans (hkl : k.Before l) (hlm : l.Before m) : k.Before m := by
  rcases hkl with hkl | ⟨hkl, hbrowser, hserver⟩
  · left
    rcases hlm with hlm | ⟨hlm, _⟩
    · exact FilePath.before_trans hkl hlm
    · rw [FilePath.before_iff] at hkl ⊢
      rwa [← FilePath.orderKey_congr hlm]
  · rcases hlm with hlm | ⟨_, hbrowser', _⟩
    · left
      rw [FilePath.before_iff] at hlm ⊢
      rwa [FilePath.orderKey_congr hkl]
    · rw [hserver] at hbrowser'
      cases hbrowser'

instance : Std.Asymm Before := ⟨fun _ _ hkl hlk => (hkl.trans hlk).slot_ne rfl⟩

end Key

end HotComponents
