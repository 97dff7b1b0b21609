import HotComponents.Proofs.Component.Normalized

/-!
# Dependencies in normal form

A compiler may list what a component depends on in any order, several times, relative or absolute,
and in any spelling. What is kept is a normal form: a strictly ascending list of absolute paths
other than the component's own. A list in normal form is kept as it is, and which paths are listed
determines, up to their spelling, what is kept.

* `normalDependencies_normalize`, `NormalDependencies.normalize_eq`: what is kept is in normal form,
  and what is in normal form is kept;
* `map_components_normalizeDependencies`: the same paths are kept if the same paths are listed;
* `kept_dependencies_are_canonical`: all of it, and which paths are kept.
-/

namespace HotComponents

open FilePath

variable {p file : FilePath} {ps listed others : List FilePath}

/-- Dependencies of a file in normal form. -/
structure NormalDependencies (file : FilePath) (ps : List FilePath) : Prop where
  ascending : ps.Pairwise fun p q => p.before q
  absolute : ∀ p ∈ ps, p.isAbsolute
  others : ∀ p ∈ ps, p.same file = false

/-- What is kept of an absolute file's dependencies is in normal form. -/
theorem normalDependencies_normalize (hfile : file.isAbsolute) (listed : List FilePath) :
    NormalDependencies file (normalizeDependencies file listed) where
  ascending := pairwise_normalizeDependencies file listed
  absolute _ := isAbsolute_of_mem_normalizeDependencies hfile
  others _ := not_same_of_mem_normalizeDependencies

/-! ## What is in normal form is kept -/

/-- In an ascending list no path has the same one behind it, so nothing is dropped. -/
theorem dedupAfter_of_ascending (h : (p :: ps).Pairwise fun p q => p.before q) :
    dedupAfter p ps = ps := by
  induction ps generalizing p with
  | nil => rfl
  | cons q rest ih =>
    obtain ⟨hfirst, hrest⟩ := List.pairwise_cons.1 h
    have hne : ¬p.same q := by
      rw [same_iff]
      exact components_ne_of_before (hfirst q List.mem_cons_self)
    rw [dedupAfter, if_neg hne, ih hrest]

theorem dedupNeighbours_of_ascending (h : ps.Pairwise fun p q => p.before q) :
    dedupNeighbours ps = ps := by
  cases ps with
  | nil => rfl
  | cons p rest => rw [dedupNeighbours, dedupAfter_of_ascending h]

/-- Dependencies in normal form are kept as they are. -/
theorem NormalDependencies.normalize_eq (h : NormalDependencies file ps) :
    normalizeDependencies file ps = ps := by
  have hjoined : ps.map (file.parent?.getD ⟨"/"⟩).join = ps :=
    (List.map_congr_left fun d hd => join_of_isAbsolute (h.absolute d hd)).trans (List.map_id ps)
  have hothers : ps.filter (fun d => !d.same file) = ps :=
    List.filter_eq_self.2 fun d hd => by rw [h.others d hd, Bool.not_false]
  have hsorted : ps.mergeSort (fun p q => !q.before p) = ps :=
    List.mergeSort_of_pairwise (h.ascending.imp not_before_of_before)
  simp only [normalizeDependencies, hjoined, hothers, hsorted]
  exact dedupNeighbours_of_ascending h.ascending

/-! ## What is kept -/

/-- A path is kept, in some spelling, if it is a listed one seen from the directory of the file and
is not the file itself. -/
theorem exists_mem_normalizeDependencies_iff :
    (∃ q ∈ normalizeDependencies file listed, q.components = p.components) ↔
      (∃ d ∈ listed, ((file.parent?.getD ⟨"/"⟩).join d).components = p.components) ∧
        p.components ≠ file.components := by
  have hother : p.same file = false ↔ p.components ≠ file.components := by
    rw [← Bool.not_eq_true, same_iff]
  simp only [← same_iff, mem_normalizeDependencies, hother]
  constructor
  · rintro ⟨d, hd, hseen, hne⟩
    exact ⟨⟨d, hd, hseen⟩, hne⟩
  · rintro ⟨⟨d, hd, hseen⟩, hne⟩
    exact ⟨d, hd, hseen, hne⟩

/-- The same paths are kept if the same paths are listed, in whatever order, however often and
however spelled. -/
theorem map_components_normalizeDependencies (hfile : file.isAbsolute)
    (hothers : ∀ d ∈ others, ∃ e ∈ listed, e.components = d.components)
    (hlisted : ∀ e ∈ listed, ∃ d ∈ others, d.components = e.components) :
    (normalizeDependencies file others).map components =
      (normalizeDependencies file listed).map components := by
  have hdir := isAbsolute_directory hfile
  have hseen {ds es : List FilePath} (hsub : ∀ d ∈ ds, ∃ e ∈ es, e.components = d.components)
      {p : FilePath}
      (hp : ∃ d ∈ ds, ((file.parent?.getD ⟨"/"⟩).join d).components = p.components) :
      ∃ e ∈ es, ((file.parent?.getD ⟨"/"⟩).join e).components = p.components := by
    obtain ⟨d, hd, heq⟩ := hp
    obtain ⟨e, he, hsame⟩ := hsub d hd
    exact ⟨e, he, (components_join_congr hdir hsame).trans heq⟩
  refine map_components_eq_of_ascending (pairwise_normalizeDependencies file others)
    (pairwise_normalizeDependencies file listed) fun p => ?_
  rw [exists_mem_normalizeDependencies_iff, exists_mem_normalizeDependencies_iff]
  exact and_congr_left fun _ => ⟨hseen hothers, hseen hlisted⟩

/-- What is kept of an absolute file's dependencies is exact. The directory they are seen from is the
root with what leads from it to the file; an absolute dependency is itself there, and a relative one
has the components of the directory and behind them its own, but for a leading `.`. What is kept is
strictly ascending, and a path is in it, by its components, if and only if it is some listed
dependency as seen from the directory and is not the file. A list of the same paths, in whatever
order, however often and however spelled, has the same paths kept in the same order; and what is kept
is kept again as it is. -/
theorem kept_dependencies_are_canonical (file : FilePath) (listed : List FilePath) :
    file.isAbsolute →
    let dir := file.parent?.getD ⟨"/"⟩
    let kept := normalizeDependencies file listed
    (dir.components = .root :: file.components.tail.dropLast ∧
      ∀ d : FilePath, (dir.join d).components =
        if d.isAbsolute then d.components else dir.components ++ d.components.filter (· ≠ .here)) ∧
    kept.Pairwise (fun p q => p.before q) ∧
    (∀ p : FilePath, (∃ q ∈ kept, q.components = p.components) ↔
      (∃ d ∈ listed, (dir.join d).components = p.components) ∧ p.components ≠ file.components) ∧
    (∀ others : List FilePath, (∀ d ∈ others, ∃ e ∈ listed, e.components = d.components) →
      (∀ e ∈ listed, ∃ d ∈ others, d.components = e.components) →
      (normalizeDependencies file others).map components = kept.map components) ∧
    normalizeDependencies file kept = kept := by
  intro hfile dir kept
  have hdir : dir.isAbsolute := isAbsolute_directory hfile
  have hnormal : NormalDependencies file kept := normalDependencies_normalize hfile listed
  refine ⟨⟨components_directory hfile, components_join_eq hdir⟩, hnormal.ascending, ?_, ?_,
    hnormal.normalize_eq⟩
  · intro p
    exact exists_mem_normalizeDependencies_iff
  · intro others hothers hlisted
    exact map_components_normalizeDependencies hfile hothers hlisted

/-- Listed in order, or out of order and spelled otherwise: the file itself and a second spelling are
left out, and `src` comes before `src-old` although a slash comes behind a hyphen. -/
theorem kept_dependencies_are_canonical_respelled :
    let file : FilePath := ⟨"/app/src/A.svelte"⟩
    let listed : List FilePath := [⟨"../lib/a.scss"⟩, ⟨"b.css"⟩, ⟨"/app/src/./b.css"⟩,
      ⟨"./A.svelte"⟩, ⟨"/app/src-old/c.css"⟩]
    let others : List FilePath := [⟨"/app/src-old//c.css"⟩, ⟨"/app/src/b.css/"⟩, ⟨"b.css"⟩,
      ⟨"./A.svelte/"⟩, ⟨"b.css/"⟩, ⟨"..//lib/a.scss"⟩]
    let kept : List FilePath := [⟨"/app/src/../lib/a.scss"⟩, ⟨"/app/src/b.css"⟩,
      ⟨"/app/src-old/c.css"⟩]
    file.isAbsolute ∧
    ((∀ d ∈ others, ∃ e ∈ listed, e.components = d.components) ∧
      ∀ e ∈ listed, ∃ d ∈ others, d.components = e.components) ∧
    normalizeDependencies file listed = kept ∧
    (normalizeDependencies file others).map components = kept.map components ∧
    normalizeDependencies file kept = kept := by
  intro file listed others kept
  have hfile : file.isAbsolute := by decide +kernel
  have hothers : ∀ d ∈ others, ∃ e ∈ listed, e.components = d.components := by decide +kernel
  have hlisted : ∀ e ∈ listed, ∃ d ∈ others, d.components = e.components := by decide +kernel
  let seen : List FilePath := [⟨"/app/src/../lib/a.scss"⟩, ⟨"/app/src/b.css"⟩,
    ⟨"/app/src/./b.css"⟩, ⟨"/app/src-old/c.css"⟩]
  have hseen : ((listed.map (file.parent?.getD ⟨"/"⟩).join).filter fun d => !d.same file) = seen := by
    decide +kernel
  have hsorted : seen.Pairwise fun p q => !q.before p := by decide +kernel
  have hkept : normalizeDependencies file listed = kept := by
    simp only [normalizeDependencies, hseen, List.mergeSort_of_pairwise hsorted]
    decide +kernel
  obtain ⟨-, -, -, hsame, hagain⟩ := kept_dependencies_are_canonical file listed hfile
  rw [hkept] at hsame hagain
  exact ⟨hfile, ⟨hothers, hlisted⟩, hkept, hsame others hothers hlisted, hagain⟩

end HotComponents
