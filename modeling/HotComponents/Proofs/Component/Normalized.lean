import HotComponents.Component.Compile
import HotComponents.Proofs.FilePath
import HotComponents.Proofs.Order

/-!
# What the record of an output holds

Whatever a compiler puts out, the record that is made of it is in order: its dependencies are strictly
ascending and none is the component itself, they are absolute if the component's file is, and there
is a stylesheet only where stylesheets are served by themselves, and then one with something in it.

* `pairwise_normalizeDependencies`: dependencies are strictly ascending;
* `isAbsolute_of_mem_normalizeDependencies`: those of an absolute file are absolute;
* `Options.wellFormed_toRecord`: a record is well-formed whatever the output was.
-/

namespace HotComponents

open FilePath

variable {p q file : FilePath} {ps dependencies : List FilePath}

/-! ## Dependencies -/

/-- Of neighbours that are the same path one is left, so a sorted list becomes strictly ascending. -/
theorem pairwise_dedupAfter (h : (p :: ps).Pairwise fun p q => !q.before p) :
    (p :: dedupAfter p ps).Pairwise fun p q => p.before q := by
  induction ps generalizing p with
  | nil => exact List.pairwise_singleton _ _
  | cons q rest ih =>
    rw [dedupAfter]
    obtain ⟨hfirst, hrest⟩ := List.pairwise_cons.1 h
    split
    · exact ih (h.sublist (by simp))
    · next hne =>
      have hrest := ih hrest
      have hpq : p.before q := by
        have hnot := hfirst q List.mem_cons_self
        refine (before_or_before fun heq => hne (same_iff.2 heq)).resolve_right ?_
        simpa using hnot
      refine List.pairwise_cons.2 ⟨fun x hx => ?_, hrest⟩
      rcases List.mem_cons.1 hx with rfl | hx
      · exact hpq
      · exact before_trans hpq ((List.pairwise_cons.1 hrest).1 x hx)

/-- Dependencies are strictly ascending. -/
theorem pairwise_normalizeDependencies (file : FilePath) (dependencies : List FilePath) :
    (normalizeDependencies file dependencies).Pairwise fun p q => p.before q := by
  simp only [normalizeDependencies]
  generalize (dependencies.map (file.parent?.getD ⟨"/"⟩).join).filter _ = others
  have hsorted : (others.mergeSort fun p q => !q.before p).Pairwise fun p q => !q.before p :=
    List.pairwise_mergeSort (fun p q r => @not_before_trans p q r) not_before_total others
  generalize others.mergeSort _ = sorted at hsorted
  cases sorted with
  | nil => exact .nil
  | cons first rest => exact pairwise_dedupAfter hsorted

/-- Each is one that was listed, as seen from the directory of the component. -/
theorem exists_of_mem_normalizeDependencies (h : p ∈ normalizeDependencies file dependencies) :
    ∃ d ∈ dependencies, p = (file.parent?.getD ⟨"/"⟩).join d := by
  have hmem := mem_of_mem_dedupNeighbours h
  simp only [List.mem_mergeSort, List.mem_filter, List.mem_map] at hmem
  obtain ⟨⟨d, hd, heq⟩, _⟩ := hmem
  exact ⟨d, hd, heq.symm⟩

theorem not_same_of_mem_normalizeDependencies (h : p ∈ normalizeDependencies file dependencies) :
    p.same file = false :=
  (mem_normalizeDependencies.1 ⟨p, h, same_iff.2 rfl⟩).elim fun _ hd => hd.2.2

/-- Those of an absolute file are absolute. -/
theorem isAbsolute_of_mem_normalizeDependencies (hfile : file.isAbsolute)
    (h : p ∈ normalizeDependencies file dependencies) : p.isAbsolute := by
  obtain ⟨d, _, rfl⟩ := exists_of_mem_normalizeDependencies h
  exact isAbsolute_join (isAbsolute_directory hfile) d

/-! ## Stylesheets -/

/-- There is nothing but blanks in the code. -/
def Code.isBlank (c : Code) : Bool := c.text.toList.all Text.isBlank

/-- A stylesheet is kept only if it is to be served by itself and is not blank. -/
theorem Options.isBlank_of_keptCss {o : Options} {css : Option Code} {c : Code}
    (h : o.keptCss css = some c) : o.emitCss ∧ c.isBlank = false := by
  unfold keptCss at h
  split at h
  · next hemit =>
    refine ⟨hemit, ?_⟩
    have hkept := (Option.filter_eq_some_iff.1 h).2
    rw [← Bool.not_eq_true]
    intro hblank
    have htrim := Text.trim_eq_nil (List.all_eq_true.1 hblank)
    simp [htrim] at hkept
  · cases h

/-! ## Records -/

/-- A record fits a slot and is in order. -/
structure Record.WellFormed (o : Options) (s : Slot) (r : Record) : Prop where
  /-- It is filed under its own file and target. -/
  slot : r.key.slot = s
  absolute : ∀ d ∈ r.dependencies, d.isAbsolute
  ascending : r.dependencies.Pairwise fun p q => p.before q
  others : ∀ d ∈ r.dependencies, d.same r.file = false
  css : ∀ c, r.css = some c → o.emitCss ∧ c.isBlank = false

/-- The record of an output is well-formed for the slot that was compiled for, whatever the output
is. -/
theorem Options.wellFormed_toRecord (o : Options) {input : CompileInput}
    (hfile : input.file.isAbsolute) (output : CompileOutput) :
    (o.toRecord input output).WellFormed o (input.file.components, input.target) where
  slot := rfl
  absolute _ := isAbsolute_of_mem_normalizeDependencies hfile
  ascending := pairwise_normalizeDependencies _ _
  others _ := not_same_of_mem_normalizeDependencies
  css _ := isBlank_of_keptCss

end HotComponents
