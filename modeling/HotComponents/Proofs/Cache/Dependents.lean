import HotComponents.Proofs.Cache.Mirror
import HotComponents.Proofs.Order

/-!
# The dependents of a file

Who depends on a file is read off the graph, but it is a fact about the records: the dependents of a
file are the keys whose current records list it, each once and in ascending order. A key whose
compute is under way counts by the record that was displaced for it, and one without a current
record never counts.

* `Graph.ascending_dependents`: dependents are listed in strictly ascending order;
* `dependents_are_current_users`: what is listed, after every run.
-/

namespace HotComponents

namespace Graph

variable {g : Graph}

/-- No slot stands twice under a file. -/
theorem pairwise_sources (hg : g.Agrees) (file : FilePath) :
    (g.sources file).Pairwise fun k l => k.slot ≠ l.slot := by
  unfold sources
  cases hfind : g.reverse.find? fun edge => edge.1.same file with
  | none => exact .nil
  | some edge => exact hg.tidy.keys edge (List.mem_of_find?_eq_some hfind)

/-- The dependents of a file are in strictly ascending order. -/
theorem ascending_dependents (hg : g.Agrees) (file : FilePath) :
    (g.dependents file).Pairwise Key.Before := by
  unfold dependents
  have hsorted : ((g.sources file).mergeSort Key.notAfter).Pairwise fun k l => k.notAfter l := by
    apply List.pairwise_mergeSort
    · intro k l m hkl hlm
      exact Key.notAfter_trans hkl hlm
    · intro k l
      rw [Bool.or_eq_true]
      exact Key.notAfter_total k l
  -- Sorting keeps the slots apart, so what does not come after comes before.
  have hdistinct : ((g.sources file).mergeSort Key.notAfter).Pairwise fun k l =>
      k.slot ≠ l.slot :=
    (pairwise_sources hg file).perm (List.mergeSort_perm _ _).symm Ne.symm
  refine (hsorted.and hdistinct).imp ?_
  intro k l h
  exact Key.before_of_notAfter h.1 h.2

end Graph

namespace Workbench

/-- The dependents of a file mirror the records. After every run, however computes succeeded,
failed, were superseded or given up in it and whatever was edited, the dependents of a file are
listed in strictly ascending order, by files and for one file the browser's before the server's, and
they are exactly the keys with a current record, stored or displaced by a compute under way, that
lists the file among its dependencies and is filed under another file. -/
theorem dependents_are_current_users (moves : List Move) (file : FilePath) :
    ((after moves).cache.dependents file).Pairwise Key.Before ∧
    ∀ k : Key, (∃ l ∈ (after moves).cache.dependents file, l.slot = k.slot) ↔
      ∃ f, (after moves).cache.current? k = some f ∧
        (∃ d ∈ f.record.dependencies, d.components = file.components) ∧
        file.components ≠ k.file.components := by
  have hmirrors := mirrors_after moves
  constructor
  · exact Graph.ascending_dependents hmirrors.agrees file
  · intro k
    exact Cache.mem_dependents hmirrors

end Workbench

end HotComponents
