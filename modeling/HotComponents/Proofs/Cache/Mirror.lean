import HotComponents.Proofs.Cache.Current
import HotComponents.Proofs.Cache.Graph

/-!
# The graph mirrors the current records

At every point of a run, a file has as its dependents the keys whose current records list it.
Records and edges change together: wherever a record becomes current its edges are recorded, and
wherever one goes its edges go.

* `mirrors_apply`: every move keeps records and edges together;
* `mirrors_after`: so does every run from an empty cache;
* `mem_dependents`: what it says of the dependents of a file.
-/

namespace HotComponents

/-- The record depends on a file. -/
def Record.uses (r : Record) (file : FilePath) : Prop :=
  ∃ d ∈ r.dependencies, d.components = file.components

namespace Cache

variable {c c' : Cache} {k l : Key} {file : FilePath}

/-- The edges of the graph are those of the current records, but for edges of a file to itself. -/
structure Mirrors (c : Cache) : Prop where
  agrees : c.graph.Agrees
  lists_iff : ∀ {file : FilePath} {k : Key}, c.graph.Lists file k ↔
    ∃ f, c.current? k = some f ∧ f.record.uses file ∧ file.components ≠ k.file.components

/-- An empty cache has no records and no edges. -/
theorem mirrors_empty : Mirrors {} where
  agrees := Graph.agrees_empty
  lists_iff := by simp [Graph.Lists, Graph.Under, Graph.listed, current?, content?]

/-- It matters only which records count and which edges there are. -/
theorem mirrors_congr (h : c.Mirrors) (hgraph : c'.graph = c.graph)
    (hcurrent : ∀ k, c'.current? k = c.current? k) : c'.Mirrors where
  agrees := hgraph ▸ h.agrees
  lists_iff := by
    intro file k
    rw [hgraph, hcurrent]
    exact h.lists_iff

/-- A record that becomes current brings its edges. -/
theorem mirrors_record {f : Filed} (h : c.Mirrors)
    (hgraph : c'.graph = c.graph.record l f.record.dependencies)
    (hcurrent : ∀ k, c'.current? k = if k.slot = l.slot then some f else c.current? k) :
    c'.Mirrors where
  agrees := hgraph ▸ Graph.agrees_record h.agrees l _
  lists_iff := by
    intro file k
    rw [hgraph, hcurrent, Graph.lists_record h.agrees]
    -- In the slot of the record the edges are those that it lists, but for one to its own file; any
    -- other slot keeps its edges.
    split
    · simp only [Option.some.injEq, exists_eq_left']
      constructor
      · rintro ⟨d, hd, hfile, hown⟩
        exact ⟨⟨d, hd, hfile⟩, hfile ▸ hown⟩
      · rintro ⟨⟨d, hd, hfile⟩, hown⟩
        exact ⟨d, hd, hfile, hfile ▸ hown⟩
    · exact h.lists_iff

/-- A record that goes takes its edges along. -/
theorem mirrors_invalidateKey (h : c.Mirrors) (l : Key) : (c.invalidateKey l).Mirrors where
  agrees := Graph.agrees_remove h.agrees l
  lists_iff := by
    intro file k
    have hcurrent : (c.invalidateKey l).current? k =
        if k.slot = l.slot then none else c.current? k := by
      unfold current?
      rw [content?_invalidateKey]
      split <;> rfl
    rw [hcurrent]
    change (c.graph.remove l).Lists file k ↔ _
    rw [Graph.lists_remove h.agrees, h.lists_iff]
    split
    · next hk => simp [hk]
    · next hk => simp [hk]

/-- The dependents of a file are the keys whose current records depend on it, the file's own left
out. -/
theorem mem_dependents (h : c.Mirrors) :
    (∃ l ∈ c.dependents file, l.slot = k.slot) ↔
      ∃ f, c.current? k = some f ∧ f.record.uses file ∧ file.components ≠ k.file.components := by
  rw [← h.lists_iff]
  simp only [dependents, Graph.dependents, List.mem_mergeSort]
  rfl

end Cache

namespace Workbench

variable {w : Workbench}

/-- A move keeps records and edges together. -/
theorem mirrors_apply (hw : Sound w) (h : w.cache.Mirrors) (m : Move) :
    (w.apply m).cache.Mirrors := by
  have hquiet (hm : w.stores m = false) : (w.apply m).cache.Mirrors :=
    Cache.mirrors_congr h (graph_apply hw hm) fun k =>
      (current?_apply hw m k).trans (currentAfter_of_not_stores hm k)
  -- A move that stores nothing keeps both.
  cases m with
  | finish i result =>
    cases result with
    | error e => exact hquiet rfl
    | ok r =>
      cases hh : w.holding? i with
      | none => exact hquiet (by simp [stores, hh])
      | some held =>
        obtain ⟨l, t⟩ := held
        -- The call holds its slot, so its record and its edges go in together.
        have hgraph := congrArg Prod.snd (apply_finish_ok w i r)
        simp only [hh, Cache.redeem, isPending_of_holding? hh, if_true] at hgraph
        refine Cache.mirrors_record (l := l) (f := ⟨r, some t⟩) h hgraph fun k => ?_
        simp only [current?_apply hw, currentAfter, hh, Key.same_iff]
  | replace r =>
    refine Cache.mirrors_record (l := r.key) (f := ⟨r, none⟩) h rfl fun k => ?_
    simp only [current?_apply hw, currentAfter, Key.same_iff]
  | invalidate file =>
    exact Cache.mirrors_invalidateKey (Cache.mirrors_invalidateKey h ⟨file, .dom⟩) ⟨file, .ssr⟩
  | invalidateKey l => exact Cache.mirrors_invalidateKey h l
  | clear => exact Cache.mirrors_congr Cache.mirrors_empty rfl fun _ => rfl
  | make => exact hquiet rfl
  | resume => exact hquiet rfl
  | cancel => exact hquiet rfl

/-- A run from a sound workbench keeps records and edges together. -/
theorem mirrors_run (hw : Sound w) (h : w.cache.Mirrors) (moves : List Move) :
    (w.run moves).cache.Mirrors :=
  kept_run (P := fun w => w.cache.Mirrors) mirrors_apply hw h moves

/-- Behind every run from an empty cache the edges are those of the records that count. -/
theorem mirrors_after (moves : List Move) : (after moves).cache.Mirrors :=
  mirrors_run sound_empty Cache.mirrors_empty moves

end Workbench

end HotComponents
