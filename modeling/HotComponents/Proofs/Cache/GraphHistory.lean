import HotComponents.Proofs.Cache.Spelled
import Mathlib.Data.List.Induction

/-!
# A dependency graph and its history

A graph is edited by recording keys, removing them and clearing it all. Whatever is done to it in
whatever order, both indices stay maps of sets that hold the same edges, without empty sets and
without edges of a key to its own file. And what the graph says is what was said of a key last: who
depends on a file are the keys that were recorded with it, if nothing came after that for the key.

* `consistent_apply`, `consistent_run`: what an edit preserves, and with it every history;
* `mem_sources_record_iff`, `mem_sources_remove_iff`: what an edit makes of the keys of a file;
* `mem_sources_run`: which keys stand under a file after a history;
* `graph_says_what_was_recorded_last`: both at once.
-/

namespace HotComponents

namespace Graph

/-! ## Edits -/

/-- Something that is done to a graph. -/
inductive Edit where
  /-- A key is recorded with the files it depends on. -/
  | record (source : Key) (files : List FilePath)
  /-- A key is removed. -/
  | remove (source : Key)
  /-- All keys are removed. -/
  | clear
deriving DecidableEq, Repr

variable {g : Graph} {index : List (FilePath × List Key)} {source k l : Key} {file : FilePath}
  {files : List FilePath} {e : Edit} {edits : List Edit}

/-- The graph after an edit. -/
def apply (g : Graph) : Edit → Graph
  | .record source files => g.record source files
  | .remove source => g.remove source
  | .clear => g.clear

/-- The graph after a history of edits. -/
def run (g : Graph) (edits : List Edit) : Graph := edits.foldl apply g

/-- The last edit comes last. -/
theorem run_concat (g : Graph) (edits : List Edit) (e : Edit) :
    g.run (edits ++ [e]) = (g.run edits).apply e := by
  simp [run]

/-- The edit settles anew what a key depends on. -/
def Edit.Settles (k : Key) : Edit → Prop
  | record source _ => source.slot = k.slot
  | remove source => source.slot = k.slot
  | clear => True

/-- In a history a key was last recorded with some files, and nothing has settled anew since what it
depends on. -/
def LastRecorded (edits : List Edit) (k : Key) (files : List FilePath) : Prop :=
  ∃ earlier later, edits = earlier ++ .record k files :: later ∧ ∀ e ∈ later, ¬ e.Settles k

/-- A history and one more edit: the last record of the key is that edit, or the one before it
stands. -/
theorem lastRecorded_concat :
    LastRecorded (edits ++ [e]) k files ↔
      e = .record k files ∨ ¬ e.Settles k ∧ LastRecorded edits k files := by
  constructor
  · rintro ⟨earlier, later, hedits, hlater⟩
    rcases List.eq_nil_or_concat later with rfl | ⟨later, last, rfl⟩
    · -- Nothing comes after the record, so it is the last edit.
      obtain ⟨-, hlast⟩ := List.append_inj' hedits rfl
      exact .inl (List.singleton_inj.1 hlast)
    · -- The last edit is one of those after the record, and does not settle the key.
      rw [List.concat_eq_append, ← List.cons_append, ← List.append_assoc] at hedits
      obtain ⟨rfl, hlast⟩ := List.append_inj' hedits rfl
      cases List.singleton_inj.1 hlast
      rw [List.concat_eq_append, List.forall_mem_append, List.forall_mem_singleton] at hlater
      exact .inr ⟨hlater.2, earlier, later, rfl, hlater.1⟩
  · rintro (rfl | ⟨he, earlier, later, rfl, hlater⟩)
    · exact ⟨edits, [], rfl, List.forall_mem_nil _⟩
    · refine ⟨earlier, later ++ [e], by simp, ?_⟩
      rw [List.forall_mem_append, List.forall_mem_singleton]
      exact ⟨hlater, he⟩

/-! ## What every edit preserves -/

/-- Both indices hold the same edges, the forward one has each key once and under it each file once,
no edge is one of a key to its own file, and each file in the reverse index has a key. -/
structure Consistent (g : Graph) : Prop where
  agrees : g.Agrees
  keys : g.forward.Pairwise fun entry entry' => entry.1.slot ≠ entry'.1.slot
  files : ∀ entry ∈ g.forward, entry.2.Pairwise fun d d' => d.components ≠ d'.components
  others : ∀ entry ∈ g.forward, ∀ d ∈ entry.2, d.components ≠ entry.1.file.components
  inhabited : ∀ entry ∈ g.reverse, entry.2 ≠ []

/-- The empty graph is consistent. -/
theorem consistent_empty : Consistent {} where
  agrees := agrees_empty
  keys := .nil
  files := List.forall_mem_nil _
  others := List.forall_mem_nil _
  inhabited := List.forall_mem_nil _

/-- Files that are listed once are apart. -/
theorem pairwise_distinct (paths : List FilePath) :
    (distinct paths).Pairwise fun d d' => d.components ≠ d'.components := by
  induction paths with
  | nil => exact .nil
  | cons p paths ih =>
    refine List.pairwise_cons.2 ⟨fun q hq => ?_, ih.filter _⟩
    have hother := (List.mem_filter.1 hq).2
    rw [Bool.not_eq_true', ← Bool.not_eq_true, FilePath.same_iff] at hother
    exact Ne.symm hother

/-- An entry that loses its last key is dropped. -/
theorem inhabited_dropSource (h : ∀ entry ∈ index, entry.2 ≠ []) :
    ∀ entry ∈ dropSource source file index, entry.2 ≠ [] := by
  induction index with
  | nil => exact List.forall_mem_nil _
  | cons entry index ih =>
    obtain ⟨f, keys⟩ := entry
    rw [List.forall_mem_cons] at h
    rw [dropSource_cons]
    split
    · split
      · exact ih h.2
      · next hsome => exact List.forall_mem_cons.2 ⟨hsome, ih h.2⟩
    · exact List.forall_mem_cons.2 ⟨h.1, ih h.2⟩

/-- An entry that gets a key has one. -/
theorem inhabited_addSource (h : ∀ entry ∈ index, entry.2 ≠ []) :
    ∀ entry ∈ addSource source file index, entry.2 ≠ [] := by
  induction index with
  | nil => simp [addSource]
  | cons entry index ih =>
    obtain ⟨f, keys⟩ := entry
    rw [List.forall_mem_cons] at h
    rw [addSource]
    split
    · refine List.forall_mem_cons.2 ⟨?_, h.2⟩
      split
      · exact h.1
      · exact List.append_ne_nil_of_right_ne_nil _ (List.cons_ne_nil _ _)
    · exact List.forall_mem_cons.2 ⟨h.1, ih h.2⟩

/-- What keeps entries inhabited for one file does so for many. -/
theorem inhabited_foldl {edit : List (FilePath × List Key) → FilePath → List (FilePath × List Key)}
    (hedit : ∀ index file, (∀ entry ∈ index, entry.2 ≠ []) → ∀ entry ∈ edit index file, entry.2 ≠ [])
    (h : ∀ entry ∈ index, entry.2 ≠ []) (files : List FilePath) :
    ∀ entry ∈ files.foldl edit index, entry.2 ≠ [] := by
  induction files generalizing index with
  | nil => exact h
  | cons f files ih => exact ih (hedit index f h)

/-- A graph stays consistent when a key is removed from it. -/
theorem consistent_remove (h : g.Consistent) (source : Key) : (g.remove source).Consistent where
  agrees := agrees_remove h.agrees source
  keys := h.keys.filter _
  files entry hentry := h.files entry (List.mem_filter.1 hentry).1
  others entry hentry := h.others entry (List.mem_filter.1 hentry).1
  inhabited := inhabited_foldl (fun _ _ => inhabited_dropSource) h.inhabited _

/-- It stays consistent when a key is recorded. -/
theorem consistent_record (h : g.Consistent) (source : Key) (files : List FilePath) :
    (g.record source files).Consistent where
  agrees := agrees_record h.agrees source files
  keys := by
    -- The key was removed before it came back.
    refine List.pairwise_cons.2 ⟨fun entry hentry => ?_, (consistent_remove h source).keys⟩
    have hother := (List.mem_filter.1 hentry).2
    rw [Bool.not_eq_true', ← Bool.not_eq_true, Key.same_iff] at hother
    exact Ne.symm hother
  files := List.forall_mem_cons.2 ⟨pairwise_distinct _, (consistent_remove h source).files⟩
  others := by
    refine List.forall_mem_cons.2 ⟨fun d hd => ?_, (consistent_remove h source).others⟩
    obtain ⟨f, -, hfile, hown⟩ := exists_mem_others.1 ⟨d, hd, rfl⟩
    exact hfile ▸ hown
  inhabited :=
    inhabited_foldl (fun _ _ => inhabited_addSource) (consistent_remove h source).inhabited _

/-- It stays consistent whatever the edit. -/
theorem consistent_apply (h : g.Consistent) (e : Edit) : (g.apply e).Consistent := by
  cases e with
  | record source files => exact consistent_record h source files
  | remove source => exact consistent_remove h source
  | clear => exact consistent_empty

/-- And so it does throughout any history. -/
theorem consistent_run (h : g.Consistent) (edits : List Edit) : (g.run edits).Consistent := by
  induction edits generalizing g with
  | nil => exact h
  | cons e edits ih => exact ih (consistent_apply h e)

/-! ## Entries -/

/-- In a consistent graph the files of a key are those of its entry. -/
theorem Consistent.deps_of_mem (h : g.Consistent) {entry : Key × List FilePath}
    (hentry : entry ∈ g.forward) (hk : entry.1.slot = k.slot) : g.deps k = entry.2 := by
  have hfind : g.forward.find? (fun entry => entry.1.same k) = some entry := by
    obtain ⟨before, behind, hsplit⟩ := List.append_of_mem hentry
    refine List.find?_eq_some_iff_append.2
      ⟨Key.same_iff.2 hk, before, behind, hsplit, fun entry' hbefore => ?_⟩
    have hkeys := h.keys
    rw [hsplit, List.pairwise_append] at hkeys
    have hapart := hkeys.2.2 entry' hbefore entry List.mem_cons_self
    rw [Bool.not_eq_true', ← Bool.not_eq_true, Key.same_iff]
    exact fun hslot => hapart (hslot.trans hk.symm)
  simp [deps, hfind]

/-- A key has a file exactly if it has an entry with the file. -/
theorem Consistent.exists_mem_deps_iff (h : g.Consistent) :
    (∃ d ∈ g.deps k, d.components = file.components) ↔
      ∃ entry ∈ g.forward, entry.1.slot = k.slot ∧ ∃ d ∈ entry.2, d.components = file.components := by
  constructor
  · rintro ⟨d, hd, hfile⟩
    cases hfind : g.forward.find? fun entry => entry.1.same k with
    | none => simp [deps, hfind] at hd
    | some entry =>
      have hfiles : g.deps k = entry.2 := by simp [deps, hfind]
      have hsame : entry.1.same k := by simpa using List.find?_some hfind
      exact ⟨entry, List.mem_of_find?_eq_some hfind, Key.same_iff.1 hsame, d, hfiles ▸ hd, hfile⟩
  · rintro ⟨entry, hentry, hk, d, hd, hfile⟩
    rw [h.deps_of_mem hentry hk]
    exact ⟨d, hd, hfile⟩

/-- In a tidy index the keys of a file are those of its entry. -/
theorem listed_of_mem (h : Tidy index) {entry : FilePath × List Key} (hentry : entry ∈ index)
    (hfile : entry.1.components = file.components) : listed index file = entry.2 := by
  induction index with
  | nil => cases hentry
  | cons first index ih =>
    obtain ⟨f, keys⟩ := first
    obtain ⟨hhead, htail⟩ := List.pairwise_cons.1 h.files
    rw [listed_cons]
    rcases List.mem_cons.1 hentry with rfl | hentry
    · rw [if_pos hfile]
    · rw [if_neg fun hf => hhead entry hentry (hf.trans hfile.symm)]
      exact ih ⟨htail, fun e he => h.keys e (List.mem_cons_of_mem _ he)⟩ hentry

/-- A key stands under a file exactly if an entry for the file has it. -/
theorem under_iff_exists_mem (h : Tidy index) :
    Under index file k ↔
      ∃ entry ∈ index, entry.1.components = file.components ∧ ∃ l ∈ entry.2, l.slot = k.slot := by
  constructor
  · rintro ⟨l, hl, hk⟩
    unfold listed at hl
    cases hfind : index.find? fun entry => entry.1.same file with
    | none => simp [hfind] at hl
    | some entry =>
      rw [hfind] at hl
      have hsame : entry.1.same file := by simpa using List.find?_some hfind
      exact ⟨entry, List.mem_of_find?_eq_some hfind, FilePath.same_iff.1 hsame, l, hl, hk⟩
  · rintro ⟨entry, hentry, hfile, hl⟩
    rw [Under, listed_of_mem h hentry hfile]
    exact hl

/-! ## Who stands under a file -/

/-- Under a file every slot stands in one spelling. -/
theorem eq_of_mem_sources (hg : g.Agrees) (hk : k ∈ g.sources file) (hl : l ∈ g.sources file)
    (h : k.slot = l.slot) : k = l := by
  have hnodup : ((g.sources file).map Key.slot).Nodup :=
    List.pairwise_map.2 (pairwise_sources hg file)
  exact List.inj_on_of_nodup_map hnodup hk hl h

/-- Where a key was removed, the others stand under a file as before. -/
theorem mem_sources_remove_iff (hg : g.Agrees) :
    k ∈ (g.remove source).sources file ↔ k ∈ g.sources file ∧ k.slot ≠ source.slot := by
  refine ⟨mem_sources_remove hg, fun ⟨hk, hne⟩ => ?_⟩
  obtain ⟨l, hl, hslot⟩ := (lists_remove hg).2 ⟨⟨k, hk, rfl⟩, hne⟩
  rwa [eq_of_mem_sources hg hk (mem_sources_remove hg hl).1 hslot.symm]

/-- Where a key was recorded, it stands under the files it was recorded with, as it is spelled now,
and the others stand there as before. -/
theorem mem_sources_record_iff (hg : g.Agrees) :
    k ∈ (g.record source files).sources file ↔
      k = source ∧ (∃ f ∈ files, f.components = file.components) ∧
          file.components ≠ source.file.components ∨
        k ∈ g.sources file ∧ k.slot ≠ source.slot := by
  constructor
  · intro hk
    refine (mem_sources_record hg hk).imp_left ?_
    rintro rfl
    have hlists : (g.record k files).Lists file k := ⟨k, hk, rfl⟩
    rw [lists_record hg, if_pos rfl] at hlists
    obtain ⟨f, hf, hfile, hown⟩ := hlists
    exact ⟨rfl, ⟨f, hf, hfile⟩, hfile ▸ hown⟩
  · rintro (⟨rfl, ⟨f, hf, hfile⟩, hown⟩ | ⟨hk, hne⟩)
    · have hlists : (g.record k files).Lists file k := by
        rw [lists_record hg, if_pos rfl]
        exact ⟨f, hf, hfile, hfile ▸ hown⟩
      obtain ⟨l, hl, hslot⟩ := hlists
      -- A key of this slot that stands there now is the one that was recorded.
      obtain rfl := (mem_sources_record hg hl).resolve_right fun hold => hold.2 hslot
      exact hl
    · have hlists : (g.record source files).Lists file k := by
        rw [lists_record hg, if_neg hne]
        exact ⟨k, hk, rfl⟩
      obtain ⟨l, hl, hslot⟩ := hlists
      rcases mem_sources_record hg hl with rfl | ⟨hold, -⟩
      · exact absurd hslot.symm hne
      · rwa [eq_of_mem_sources hg hk hold hslot.symm]

/-- Who stands under a file after a history: the keys that were last recorded with the file, but for
that of the file itself. -/
theorem mem_sources_run (edits : List Edit) :
    k ∈ (run {} edits).sources file ↔
      ∃ files, LastRecorded edits k files ∧ (∃ f ∈ files, f.components = file.components) ∧
        file.components ≠ k.file.components := by
  induction edits using List.reverseRecOn with
  | nil =>
    have hnone (files : List FilePath) : ¬ LastRecorded [] k files := by
      rintro ⟨earlier, later, hedits, -⟩
      simp at hedits
    simp [run, sources, hnone]
  | append_singleton edits e ih =>
    have hagrees := (consistent_run consistent_empty edits).agrees
    simp only [run_concat, lastRecorded_concat]
    cases e with
    | record source files' =>
      change k ∈ ((run {} edits).record source files').sources file ↔ _
      rw [mem_sources_record_iff hagrees, ih]
      constructor
      · rintro (⟨rfl, hlisted⟩ | ⟨⟨files, hlast, hlisted⟩, hne⟩)
        · exact ⟨files', .inl rfl, hlisted⟩
        · exact ⟨files, .inr ⟨Ne.symm hne, hlast⟩, hlisted⟩
      · rintro ⟨files, hnew | ⟨hne, hlast⟩, hlisted⟩
        · cases hnew
          exact .inl ⟨rfl, hlisted⟩
        · exact .inr ⟨⟨files, hlast, hlisted⟩, Ne.symm hne⟩
    | remove source =>
      change k ∈ ((run {} edits).remove source).sources file ↔ _
      rw [mem_sources_remove_iff hagrees, ih]
      constructor
      · rintro ⟨⟨files, hlast, hlisted⟩, hne⟩
        exact ⟨files, .inr ⟨Ne.symm hne, hlast⟩, hlisted⟩
      · rintro ⟨files, hnew | ⟨hne, hlast⟩, hlisted⟩
        · cases hnew
        · exact ⟨⟨files, hlast, hlisted⟩, Ne.symm hne⟩
    | clear =>
      -- Nothing that was recorded before counts any more.
      constructor
      · intro hk
        cases hk
      · rintro ⟨files, hnew | ⟨hnot, -⟩, -⟩
        · cases hnew
        · exact absurd trivial hnot

/-! ## Histories -/

/-- A dependency graph says what was recorded last. Take an empty graph and any history of records,
removals and clearings, with any keys and any lists of files. Each index then has each of its keys or
files once, and under it each file or slot once; a key stands under a file in the reverse index
exactly if the file stands under the key in the forward one; nothing in the reverse index is empty;
and no key has its own file. The dependents of a file are listed in strictly ascending order, and
they are the keys, as they were spelled then, whose last record listed the file, with neither a
removal of the key nor a clearing behind it, and whose own file is another one. -/
theorem graph_says_what_was_recorded_last (edits : List Edit) :
    let g := run {} edits
    (g.forward.Pairwise (fun entry entry' => entry.1.slot ≠ entry'.1.slot) ∧
      ∀ entry ∈ g.forward, entry.2.Pairwise fun d d' => d.components ≠ d'.components) ∧
    (g.reverse.Pairwise (fun entry entry' => entry.1.components ≠ entry'.1.components) ∧
      ∀ entry ∈ g.reverse, entry.2.Pairwise fun k l => k.slot ≠ l.slot) ∧
    (∀ (file : FilePath) (k : Key),
      (∃ entry ∈ g.reverse, entry.1.components = file.components ∧
          ∃ l ∈ entry.2, l.slot = k.slot) ↔
        ∃ entry ∈ g.forward, entry.1.slot = k.slot ∧
          ∃ d ∈ entry.2, d.components = file.components) ∧
    (∀ entry ∈ g.reverse, entry.2 ≠ []) ∧
    (∀ entry ∈ g.forward, ∀ d ∈ entry.2, d.components ≠ entry.1.file.components) ∧
    ∀ file : FilePath, (g.dependents file).Pairwise Key.Before ∧
      ∀ k : Key, k ∈ g.dependents file ↔
        ∃ files, LastRecorded edits k files ∧ (∃ f ∈ files, f.components = file.components) ∧
          file.components ≠ k.file.components := by
  intro g
  have hg : g.Consistent := consistent_run consistent_empty edits
  refine ⟨⟨hg.keys, hg.files⟩, ⟨hg.agrees.tidy.files, hg.agrees.tidy.keys⟩, ?_, hg.inhabited,
    hg.others, fun file => ⟨ascending_dependents hg.agrees file, fun k => ?_⟩⟩
  · intro file k
    rw [← under_iff_exists_mem hg.agrees.tidy, ← hg.exists_mem_deps_iff]
    exact hg.agrees.lists_iff
  · rw [dependents, List.mem_mergeSort]
    exact mem_sources_run edits

/-- Recorded again under another spelling, a key stands under a file as it is spelled then, and only
under the files that it was recorded with again. -/
example :
    let g := run {} [.record ⟨⟨"/A"⟩, .dom⟩ [⟨"/x"⟩, ⟨"/y"⟩], .record ⟨⟨"/A"⟩, .ssr⟩ [⟨"/y"⟩],
      .record ⟨⟨"//A/"⟩, .dom⟩ [⟨"/A"⟩, ⟨"/./y"⟩, ⟨"/y"⟩]]
    g.sources ⟨"/y"⟩ = [⟨⟨"/A"⟩, .ssr⟩, ⟨⟨"//A/"⟩, .dom⟩] ∧ g.sources ⟨"/x"⟩ = [] := by
  decide +kernel

end Graph

end HotComponents
