import HotComponents.Proofs.Cache.Dependents
import Mathlib.Data.List.Sort

/-!
# How dependents are spelled

A file can be spelled in several ways, and a dependent is listed as it was spelled when its record
was stored. That is how the file of the record is spelled, so the dependents of a file, with their
spelling and their order, follow from the records alone.

* `Graph.mem_sources_remove`, `Graph.mem_sources_record`: which keys stay and which one comes;
* `Workbench.spelled_apply`: what one move preserves;
* `Cache.dependents_congr`: caches with the same records have the same dependents.
-/

namespace HotComponents

namespace Graph

variable {g : Graph} {index : List (FilePath × List Key)} {source l : Key} {file other : FilePath}
  {files : List FilePath}

/-- No key comes to a file where a key is taken away. -/
theorem mem_listed_foldl_dropSource (h : Tidy index)
    (hl : l ∈ listed (files.foldl (fun index file => dropSource source file index) index) other) :
    l ∈ listed index other := by
  induction files generalizing index with
  | nil => exact hl
  | cons f files ih =>
    have hmem := ih (tidy_dropSource h) hl
    rw [listed_dropSource h] at hmem
    split at hmem
    · exact (List.mem_filter.1 hmem).1
    · exact hmem

/-- Only the key that is added comes to a file. -/
theorem mem_listed_foldl_addSource
    (hl : l ∈ listed (files.foldl (fun index file => addSource source file index) index) other) :
    l = source ∨ l ∈ listed index other := by
  induction files generalizing index with
  | nil => exact .inr hl
  | cons f files ih =>
    rcases ih hl with hsource | hmem
    · exact .inl hsource
    · rw [listed_addSource] at hmem
      split at hmem
      · rw [List.mem_append, List.mem_singleton] at hmem
        exact hmem.symm
      · exact .inr hmem

/-- Where a key was removed, the others stay under a file as they are spelled. -/
theorem mem_sources_remove (hg : g.Agrees) (hl : l ∈ (g.remove source).sources file) :
    l ∈ g.sources file ∧ l.slot ≠ source.slot := by
  have hlists : (g.remove source).Lists file l := ⟨l, hl, rfl⟩
  exact ⟨mem_listed_foldl_dropSource hg.tidy hl, ((lists_remove hg).1 hlists).2⟩

/-- Where a key was recorded, it stands under a file as it is spelled now, and the others stay. -/
theorem mem_sources_record (hg : g.Agrees) (hl : l ∈ (g.record source files).sources file) :
    l = source ∨ l ∈ g.sources file ∧ l.slot ≠ source.slot :=
  (mem_listed_foldl_addSource hl).imp_right (mem_sources_remove hg)

end Graph

namespace Cache

variable {c c' : Cache} {l : Key} {f : Filed} {file : FilePath}

/-- Whoever depends on a file is spelled like the file of its current record. -/
def Spelled (c : Cache) : Prop :=
  ∀ (file : FilePath) (l : Key) (f : Filed), l ∈ c.graph.sources file → c.current? l = some f →
    f.record.file = l.file

/-- Only the edges and the current records matter. -/
theorem spelled_congr (h : c.Spelled) (hgraph : c'.graph = c.graph)
    (hcurrent : ∀ k, c'.current? k = c.current? k) : c'.Spelled := by
  intro file l f hl hf
  rw [hgraph] at hl
  rw [hcurrent] at hf
  exact h file l f hl hf

/-- A record that is stored under a key as its file is spelled leaves all keys spelled so. -/
theorem spelled_record (hm : c.Mirrors) (h : c.Spelled) (hfile : f.record.file = l.file)
    (hgraph : c'.graph = c.graph.record l f.record.dependencies)
    (hcurrent : ∀ k, c'.current? k = if k.slot = l.slot then some f else c.current? k) :
    c'.Spelled := by
  intro file k f' hk hf'
  rw [hgraph] at hk
  rw [hcurrent] at hf'
  rcases Graph.mem_sources_record hm.agrees hk with rfl | ⟨hk, hne⟩
  · rw [if_pos rfl] at hf'
    cases hf'
    exact hfile
  · rw [if_neg hne] at hf'
    exact h file k f' hk hf'

/-- So does emptying a slot. -/
theorem spelled_invalidateKey (hm : c.Mirrors) (h : c.Spelled) (l : Key) :
    (c.invalidateKey l).Spelled := by
  intro file k f hk hf
  obtain ⟨hk, hne⟩ := Graph.mem_sources_remove hm.agrees hk
  rw [current?, content?_invalidateKey, if_neg hne] at hf
  exact h file k f hk hf

/-- The dependents are the sources, in order. -/
theorem mem_dependents_iff_mem_sources : l ∈ c.dependents file ↔ l ∈ c.graph.sources file := by
  rw [dependents, Graph.dependents, List.mem_mergeSort]

/-- Whoever depends on a file in one cache depends on it in another one that has the same records.
-/
theorem mem_dependents_of_records (hm : c.Mirrors) (hm' : c'.Mirrors) (h : c.Spelled)
    (h' : c'.Spelled)
    (hsame : ∀ k, (c.current? k).map Filed.record = (c'.current? k).map Filed.record)
    (hl : l ∈ c.dependents file) : l ∈ c'.dependents file := by
  obtain ⟨f, hf, huses, hother⟩ := (mem_dependents hm).1 ⟨l, hl, rfl⟩
  have hrecord := hsame l
  rw [hf] at hrecord
  obtain ⟨f', hf', hrecord⟩ := Option.map_eq_some_iff.1 hrecord.symm
  rw [← hrecord] at huses
  obtain ⟨l', hl', hslot⟩ := (mem_dependents hm').2 ⟨f', hf', huses, hother⟩
  -- Both are spelled like the file of the record that they share.
  have hspelled := h file l f (mem_dependents_iff_mem_sources.1 hl) hf
  have hcurrent' : c'.current? l' = some f' := by
    rw [current?, content?_congr hslot]
    exact hf'
  have hspelled' := h' file l' f' (mem_dependents_iff_mem_sources.1 hl') hcurrent'
  have hfile : l'.file = l.file := by rw [← hspelled', hrecord, hspelled]
  have htarget : l'.target = l.target := congrArg Prod.snd hslot
  have hself : l' = l := by
    cases l
    cases l'
    simp_all
  rwa [← hself]

/-- Caches with the same records have the same dependents. -/
theorem dependents_congr (hm : c.Mirrors) (hm' : c'.Mirrors) (h : c.Spelled) (h' : c'.Spelled)
    (hsame : ∀ k, (c.current? k).map Filed.record = (c'.current? k).map Filed.record)
    (file : FilePath) : c.dependents file = c'.dependents file := by
  refine (Graph.ascending_dependents hm.agrees file).eq_of_mem_iff
    (Graph.ascending_dependents hm'.agrees file) fun l => ⟨?_, ?_⟩
  · exact mem_dependents_of_records hm hm' h h' hsame
  · exact mem_dependents_of_records hm' hm h' h fun k => (hsame k).symm

end Cache

namespace Workbench

variable {w : Workbench} {m : Move}

/-- What one move preserves: the record that is stored is one of the file of its key. -/
theorem spelled_apply (hw : Sound w) (hm : w.cache.Mirrors) (h : w.cache.Spelled)
    (hland : ∀ {j t : Nat} {leader : Call} {d : Option Filed} {r : Record},
      m = .finish j (.ok r) → w.calls[j]? = some leader → leader.phase = .computing t d →
      r.file = leader.key.file) : (w.apply m).cache.Spelled := by
  -- A move that stores nothing changes neither the edges nor the current records.
  have hquiet (hquiet : w.stores m = false) : (w.apply m).cache.Spelled :=
    Cache.spelled_congr h (graph_apply hw hquiet) fun k =>
      (current?_apply hw m k).trans (currentAfter_of_not_stores hquiet k)
  -- The others store a record that is spelled as its key, or take records away.
  cases m with
  | finish i result =>
    cases result with
    | error e => exact hquiet rfl
    | ok r =>
      cases hh : w.holding? i with
      | none => exact hquiet (by simp [stores, hh])
      | some held =>
        obtain ⟨l, t⟩ := held
        obtain ⟨leader, d, hleader, rfl, hleads⟩ := computing_of_holding? hh
        have hgraph := congrArg Prod.snd (apply_finish_ok w i r)
        simp only [hh, Cache.redeem, isPending_of_holding? hh, if_true] at hgraph
        refine Cache.spelled_record (f := ⟨r, some t⟩) hm h (hland rfl hleader hleads) hgraph
          fun k => ?_
        simp only [current?_apply hw, currentAfter, hh, Key.same_iff]
  | replace r =>
    refine Cache.spelled_record (l := r.key) (f := ⟨r, none⟩) hm h rfl rfl fun k => ?_
    simp only [current?_apply hw, currentAfter, Key.same_iff]
  | invalidate file =>
    exact Cache.spelled_invalidateKey (Cache.mirrors_invalidateKey hm _)
      (Cache.spelled_invalidateKey hm h ⟨file, .dom⟩) ⟨file, .ssr⟩
  | invalidateKey l => exact Cache.spelled_invalidateKey hm h l
  | clear =>
    intro file l f hl
    cases hl
  | make => exact hquiet rfl
  | resume => exact hquiet rfl
  | cancel => exact hquiet rfl

end Workbench

end HotComponents
