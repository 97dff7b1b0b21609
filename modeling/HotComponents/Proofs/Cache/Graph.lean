import HotComponents.Cache.Graph

/-!
# The two indices of a dependency graph

The reverse index answers who depends on a file, and the forward index says what has to be taken out
of it when a key goes. This works because both hold the same edges: a key is listed under a file
exactly if the file is among the files of the key.

* `agrees_remove`, `agrees_record`: removing and recording keys keep the indices in agreement;
* `lists_remove`, `lists_record`: what they make of the edges.
-/

namespace HotComponents

namespace Graph

variable {g : Graph} {index : List (FilePath × List Key)} {source k : Key} {file other : FilePath}
  {files : List FilePath}

/-- The keys under the first entry of an index for a file. -/
def listed (index : List (FilePath × List Key)) (file : FilePath) : List Key :=
  ((index.find? fun edge => edge.1.same file).map Prod.snd).getD []

/-- The slot of a key stands under a file. -/
def Under (index : List (FilePath × List Key)) (file : FilePath) (k : Key) : Prop :=
  ∃ l ∈ listed index file, l.slot = k.slot

/-- The graph lists the slot of a key among those that depend on a file. -/
def Lists (g : Graph) (file : FilePath) (k : Key) : Prop := Under g.reverse file k

/-- Every file stands at most once in a reverse index, and under it every slot at most once. -/
structure Tidy (index : List (FilePath × List Key)) : Prop where
  files : index.Pairwise fun edge edge' => edge.1.components ≠ edge'.1.components
  keys : ∀ edge ∈ index, edge.2.Pairwise fun k l => k.slot ≠ l.slot

/-- Both indices hold the same edges, and the reverse one is tidy. -/
structure Agrees (g : Graph) : Prop where
  tidy : Tidy g.reverse
  lists_iff : ∀ {file : FilePath} {k : Key},
    g.Lists file k ↔ ∃ d ∈ g.deps k, d.components = file.components

/-- Nothing is listed in the empty graph. -/
theorem agrees_empty : Agrees {} where
  tidy := ⟨.nil, by simp⟩
  lists_iff := by simp [Lists, Under, listed, deps]

/-! ## One file of an index -/

/-- Nothing stands in an empty index. -/
@[simp] theorem listed_nil : listed [] file = [] := rfl

/-- The first entry of a file decides. -/
theorem listed_cons (f : FilePath) (keys : List Key) :
    listed ((f, keys) :: index) file =
      if f.components = file.components then keys else listed index file := by
  unfold listed
  rw [List.find?_cons]
  by_cases h : f.components = file.components
  · simp [FilePath.same, h]
  · have hother : f.same file = false := by simpa [FilePath.same] using h
    simp [hother, h]

/-- A key is added behind those of its file, if none of its slot stands there. -/
theorem listed_addSource :
    listed (addSource source file index) other =
      if file.components = other.components ∧ ∀ l ∈ listed index other, l.slot ≠ source.slot
      then listed index other ++ [source] else listed index other := by
  induction index with
  | nil =>
    rw [addSource, listed_cons]
    simp
  | cons edge index ih =>
    obtain ⟨f, keys⟩ := edge
    rw [addSource]
    by_cases hfile : f.components = file.components
    · -- The key goes to this entry, unless it is there.
      rw [if_pos (FilePath.same_iff.2 hfile), listed_cons, listed_cons]
      by_cases hother : f.components = other.components
      · simp only [hother, if_true, hfile.symm.trans hother, true_and]
        by_cases hany : keys.any (·.same source)
        · rw [if_pos hany, if_neg]
          simpa [Key.same] using hany
        · rw [if_neg hany, if_pos]
          simpa [Key.same] using hany
      · rw [if_neg hother, if_neg hother, if_neg]
        exact fun h => hother (hfile.trans h.1)
    · rw [if_neg (fun h => hfile (FilePath.same_iff.1 h)), listed_cons, listed_cons, ih]
      by_cases hother : f.components = other.components
      · simp only [hother, if_true]
        rw [if_neg]
        exact fun h => hfile (hother.trans h.1.symm)
      · simp only [hother, if_false]

/-- A file without an entry has no keys. -/
theorem listed_eq_nil (h : ∀ edge ∈ index, edge.1.components ≠ file.components) :
    listed index file = [] := by
  have hfind : index.find? (fun edge => edge.1.same file) = none := by
    simpa [FilePath.same] using h
  simp [listed, hfind]

/-- What is left of an entry when a key is taken away from a file. -/
theorem dropSource_cons (f : FilePath) (keys : List Key) :
    dropSource source file ((f, keys) :: index) =
      if f.components = file.components then
        if keys.filter (fun k => !k.same source) = [] then dropSource source file index
        else (f, keys.filter fun k => !k.same source) :: dropSource source file index
      else (f, keys) :: dropSource source file index := by
  simp only [dropSource, List.filterMap_cons, FilePath.same_iff, List.isEmpty_iff]
  by_cases hfile : f.components = file.components
  · by_cases hempty : keys.filter (fun k => !k.same source) = []
    · simp [hfile, hempty]
    · simp [hfile, hempty]
  · simp [hfile]

/-- No entry is new and none has more keys where a key was taken away. -/
theorem mem_dropSource {edge : FilePath × List Key} (h : edge ∈ dropSource source file index) :
    ∃ edge' ∈ index, edge'.1 = edge.1 ∧ edge.2.Sublist edge'.2 := by
  simp only [dropSource, List.mem_filterMap] at h
  obtain ⟨⟨f, keys⟩, hmem, hedge⟩ := h
  refine ⟨(f, keys), hmem, ?_⟩
  split at hedge
  · split at hedge
    · cases hedge
    · cases hedge
      exact ⟨rfl, List.filter_sublist⟩
  · cases hedge
    exact ⟨rfl, List.Sublist.refl _⟩

/-- An index from which a key is taken away stays tidy. -/
theorem tidy_dropSource (h : Tidy index) : Tidy (dropSource source file index) where
  files := by
    induction index with
    | nil => exact .nil
    | cons edge index ih =>
      obtain ⟨f, keys⟩ := edge
      obtain ⟨hhead, htail⟩ := List.pairwise_cons.1 h.files
      have hrest := ih ⟨htail, fun edge hedge => h.keys edge (List.mem_cons_of_mem _ hedge)⟩
      -- The files of the entries that are left were there before, so the head is apart from them.
      have hfresh (edge : FilePath × List Key) (hedge : edge ∈ dropSource source file index) :
          f.components ≠ edge.1.components := by
        obtain ⟨edge', hmem, hsame, _⟩ := mem_dropSource hedge
        rw [← hsame]
        exact hhead edge' hmem
      rw [dropSource_cons]
      split
      · split
        · exact hrest
        · exact List.pairwise_cons.2 ⟨hfresh, hrest⟩
      · exact List.pairwise_cons.2 ⟨hfresh, hrest⟩
  keys edge hedge := by
    obtain ⟨edge', hmem, _, hsub⟩ := mem_dropSource hedge
    exact (h.keys edge' hmem).sublist hsub

/-- A file loses the keys of the slot that is taken away from it, and the other files lose none. -/
theorem listed_dropSource (h : Tidy index) :
    listed (dropSource source file index) other =
      if file.components = other.components
      then (listed index other).filter fun k => !k.same source else listed index other := by
  induction index with
  | nil => simp [dropSource]
  | cons edge index ih =>
    obtain ⟨f, keys⟩ := edge
    obtain ⟨hhead, htail⟩ := List.pairwise_cons.1 h.files
    have hrest := ih ⟨htail, fun edge hedge => h.keys edge (List.mem_cons_of_mem _ hedge)⟩
    rw [dropSource_cons, listed_cons]
    by_cases hfile : f.components = file.components
    · rw [if_pos hfile]
      by_cases hempty : keys.filter (fun k => !k.same source) = []
      · rw [if_pos hempty, hrest]
        by_cases hother : f.components = other.components
        · -- The entry of the file is gone, and it has no other one.
          have hnone : listed index other = [] :=
            listed_eq_nil fun edge hedge => hother ▸ (hhead edge hedge).symm
          simp [hnone, hempty, hother, hfile.symm.trans hother]
        · have hne : file.components ≠ other.components := fun h => hother (hfile.trans h)
          simp [hother, hne]
      · rw [if_neg hempty, listed_cons, hrest]
        by_cases hother : f.components = other.components
        · simp [hother, hfile.symm.trans hother]
        · have hne : file.components ≠ other.components := fun h => hother (hfile.trans h)
          simp [hother, hne]
    · rw [if_neg hfile, listed_cons, hrest]
      by_cases hother : f.components = other.components
      · have hne : file.components ≠ other.components := fun h => hfile (hother.trans h.symm)
        simp [hother, hne]
      · simp [hother]

/-- A slot stands under a file afterwards if it did before, or if it is the one that was added
there. -/
theorem under_addSource :
    Under (addSource source file index) other k ↔
      Under index other k ∨ file.components = other.components ∧ source.slot = k.slot := by
  unfold Under
  rw [listed_addSource]
  split
  · next h => simp [h.1]
  · next h =>
    constructor
    · exact .inl
    · rintro (hold | ⟨hfile, hsource⟩)
      · exact hold
      · apply Classical.byContradiction
        intro hnone
        exact h ⟨hfile, fun l hl heq => hnone ⟨l, hl, heq.trans hsource⟩⟩

/-- A slot stands under a file afterwards if it did before and is not the one that was taken away
there. -/
theorem under_dropSource (h : Tidy index) :
    Under (dropSource source file index) other k ↔
      Under index other k ∧ ¬ (file.components = other.components ∧ source.slot = k.slot) := by
  unfold Under
  rw [listed_dropSource h]
  split
  · next hfile =>
    simp only [hfile, true_and, List.mem_filter, Bool.not_eq_true', Key.same, beq_eq_false_iff_ne]
    constructor
    · rintro ⟨l, ⟨hl, hne⟩, hlk⟩
      exact ⟨⟨l, hl, hlk⟩, fun hsource => hne (hlk.trans hsource.symm)⟩
    · rintro ⟨⟨l, hl, hlk⟩, hne⟩
      exact ⟨l, ⟨hl, fun hsource => hne (hsource.symm.trans hlk)⟩, hlk⟩
  · next hfile => simp [hfile]

/-- All entries but one for the file are as they were. -/
theorem mem_addSource {edge : FilePath × List Key} (h : edge ∈ addSource source file index) :
    edge.1.components = file.components ∨ edge ∈ index := by
  induction index with
  | nil => exact .inl (List.mem_singleton.1 h ▸ rfl)
  | cons first index ih =>
    obtain ⟨f, keys⟩ := first
    rw [addSource] at h
    split at h
    · next hfile =>
      rcases List.mem_cons.1 h with rfl | h
      · exact .inl (FilePath.same_iff.1 hfile)
      · exact .inr (List.mem_cons_of_mem _ h)
    · rcases List.mem_cons.1 h with rfl | h
      · exact .inr List.mem_cons_self
      · exact (ih h).imp_right (List.mem_cons_of_mem _)

/-- An index to which a key is added stays tidy. -/
theorem tidy_addSource (h : Tidy index) : Tidy (addSource source file index) := by
  induction index with
  | nil => exact ⟨List.pairwise_singleton _ _, by simp [addSource]⟩
  | cons edge index ih =>
    obtain ⟨f, keys⟩ := edge
    obtain ⟨hhead, htail⟩ := List.pairwise_cons.1 h.files
    have hkeys := h.keys (f, keys) List.mem_cons_self
    have hrest : Tidy index := ⟨htail, fun edge hedge => h.keys edge (List.mem_cons_of_mem _ hedge)⟩
    rw [addSource]
    split
    · -- The entry keeps its file, and a key is added only if it is not there.
      refine ⟨List.pairwise_cons.2 ⟨hhead, htail⟩, List.forall_mem_cons.2 ⟨?_, hrest.keys⟩⟩
      split
      · exact hkeys
      · next hany =>
        refine List.pairwise_append.2 ⟨hkeys, List.pairwise_singleton _ _, fun k hk l hl => ?_⟩
        rw [List.mem_singleton.1 hl]
        intro heq
        exact hany (List.any_eq_true.2 ⟨k, hk, Key.same_iff.2 heq⟩)
    · next hfile =>
      -- A new entry is added behind, for a file that no entry is for.
      have hadded := ih hrest
      refine ⟨List.pairwise_cons.2 ⟨fun edge hedge => ?_, hadded.files⟩,
        List.forall_mem_cons.2 ⟨hkeys, hadded.keys⟩⟩
      rcases mem_addSource hedge with hnew | hold
      · exact fun heq => hfile (FilePath.same_iff.2 (heq.trans hnew))
      · exact hhead edge hold

/-! ## Many files of an index -/

/-- So does one from which a key is taken away for many files. -/
theorem tidy_foldl_dropSource (h : Tidy index) (files : List FilePath) :
    Tidy (files.foldl (fun index file => dropSource source file index) index) := by
  induction files generalizing index with
  | nil => exact h
  | cons f files ih => exact ih (tidy_dropSource h)

/-- A slot that is taken away for many files stands under none of them. -/
theorem under_foldl_dropSource (h : Tidy index) :
    Under (files.foldl (fun index file => dropSource source file index) index) other k ↔
      Under index other k ∧
        ¬ ((∃ f ∈ files, f.components = other.components) ∧ source.slot = k.slot) := by
  -- On the files, for any index: each of them leaves a tidy one to the next.
  induction files generalizing index with
  | nil => simp
  | cons f files ih =>
    rw [List.foldl_cons, ih (tidy_dropSource h), under_dropSource h]
    simp only [List.mem_cons, exists_eq_or_imp]
    constructor
    · rintro ⟨⟨hunder, hf⟩, hfiles⟩
      refine ⟨hunder, ?_⟩
      rintro ⟨hfile | hfile, hsource⟩
      · exact hf ⟨hfile, hsource⟩
      · exact hfiles ⟨hfile, hsource⟩
    · rintro ⟨hunder, hnone⟩
      exact ⟨⟨hunder, fun h => hnone ⟨.inl h.1, h.2⟩⟩, fun h => hnone ⟨.inr h.1, h.2⟩⟩

/-- And so does one to which a key is added for many files. -/
theorem tidy_foldl_addSource (h : Tidy index) (files : List FilePath) :
    Tidy (files.foldl (fun index file => addSource source file index) index) := by
  induction files generalizing index with
  | nil => exact h
  | cons f files ih => exact ih (tidy_addSource h)

/-- A slot that is added for many files stands under all of them. -/
theorem under_foldl_addSource :
    Under (files.foldl (fun index file => addSource source file index) index) other k ↔
      Under index other k ∨
        (∃ f ∈ files, f.components = other.components) ∧ source.slot = k.slot := by
  induction files generalizing index with
  | nil => simp
  | cons f files ih =>
    rw [List.foldl_cons, ih, under_addSource]
    simp only [List.mem_cons, or_and_right, exists_or, exists_eq_left, or_assoc]

/-- The same files are listed once as were listed any number of times. -/
theorem exists_mem_distinct {paths : List FilePath} :
    (∃ d ∈ distinct paths, d.components = file.components) ↔
      ∃ d ∈ paths, d.components = file.components := by
  induction paths with
  | nil => rfl
  | cons p paths ih =>
    simp only [distinct, List.mem_cons, exists_eq_or_imp, ← ih, List.mem_filter]
    by_cases hp : p.components = file.components
    · simp [hp]
    · simp only [hp, false_or]
      constructor
      · rintro ⟨d, ⟨hd, _⟩, hfile⟩
        exact ⟨d, hd, hfile⟩
      · rintro ⟨d, hd, hfile⟩
        refine ⟨d, ⟨hd, ?_⟩, hfile⟩
        simpa [FilePath.same, hfile] using Ne.symm hp

/-- The files that a key with the listed ones depends on. -/
theorem exists_mem_others {own : FilePath} :
    (∃ d ∈ distinct (files.filter fun f => !f.same own), d.components = file.components) ↔
      ∃ f ∈ files, f.components = file.components ∧ f.components ≠ own.components := by
  rw [exists_mem_distinct]
  constructor
  · rintro ⟨d, hd, hfile⟩
    obtain ⟨hmem, hown⟩ := List.mem_filter.1 hd
    exact ⟨d, hmem, hfile, by simpa [FilePath.same] using hown⟩
  · rintro ⟨d, hmem, hfile, hown⟩
    exact ⟨d, List.mem_filter.2 ⟨hmem, by simpa [FilePath.same] using hown⟩, hfile⟩

/-! ## Removing and recording keys -/

/-- The files of a key do not depend on how its own file is spelled. -/
theorem deps_congr (h : k.slot = source.slot) : g.deps k = g.deps source := by
  simp [deps, Key.same, h]

/-- A key that was removed has no files, and the other keys have theirs. -/
theorem deps_remove :
    (g.remove source).deps k = if k.slot = source.slot then [] else g.deps k := by
  unfold deps remove
  rw [List.find?_filter]
  split
  · -- The filter is on other keys, so it does not matter to the search for this one.
    next h =>
    have hfind : g.forward.find? (fun edge => !edge.1.same source && edge.1.same k) = none := by
      simp [Key.same, h]
    simp [hfind]
  · next h =>
    congr 3
    funext edge
    by_cases hk : edge.1.slot = k.slot
    · simp [Key.same, hk, h]
    · have hother : (edge.1.slot == k.slot) = false := by simpa using hk
      simp [Key.same, hother]

/-- It stands under no file, and the other keys stand where they stood. -/
theorem lists_remove (hg : g.Agrees) :
    (g.remove source).Lists file k ↔ g.Lists file k ∧ k.slot ≠ source.slot := by
  unfold Lists remove
  rw [under_foldl_dropSource hg.tidy]
  -- Whatever the key stood under is among its files, so it is taken out everywhere.
  constructor
  · rintro ⟨hunder, hnone⟩
    refine ⟨hunder, fun hsource => hnone ⟨?_, hsource.symm⟩⟩
    rw [← deps_congr hsource]
    exact hg.lists_iff.1 hunder
  · rintro ⟨hunder, hne⟩
    exact ⟨hunder, fun h => hne h.2.symm⟩

/-- Removing a key takes its edges out of both indices. -/
theorem agrees_remove (hg : g.Agrees) (source : Key) : (g.remove source).Agrees where
  tidy := tidy_foldl_dropSource hg.tidy _
  lists_iff := by
    intro file k
    rw [lists_remove hg, deps_remove, hg.lists_iff]
    split
    · next h => simp [h]
    · next h => simp [h]

/-- A key that was recorded has the listed files once each, without its own. -/
theorem deps_record :
    (g.record source files).deps k =
      if k.slot = source.slot then distinct (files.filter fun f => !f.same source.file)
      else g.deps k := by
  split
  · next h => rw [deps_congr h, deps_record_self]
  · next h =>
    have hskip : source.same k = false := by simpa [Key.same] using Ne.symm h
    have hremove : (g.remove source).deps k = g.deps k := deps_remove.trans (if_neg h)
    rw [← hremove]
    simp [deps, record, hskip]

/-- After a key was recorded its edges are to the listed files, its own left out; the other edges
are as they were. -/
theorem lists_record (hg : g.Agrees) :
    (g.record source files).Lists file k ↔
      if k.slot = source.slot
      then ∃ f ∈ files, f.components = file.components ∧ f.components ≠ k.file.components
      else g.Lists file k := by
  have hremoved : Under (g.remove source).reverse file k ↔ g.Lists file k ∧ k.slot ≠ source.slot :=
    lists_remove hg
  have hfile (h : k.slot = source.slot) : k.file.components = source.file.components :=
    congrArg Prod.fst h
  unfold Lists record
  rw [under_foldl_addSource, exists_mem_others, hremoved]
  split
  · next h => simp [h, hfile h]
  · next h => simp [h, Ne.symm h, Lists]

/-- Recording a key puts its edges into both indices. -/
theorem agrees_record (hg : g.Agrees) (source : Key) (files : List FilePath) :
    (g.record source files).Agrees where
  tidy := tidy_foldl_addSource (agrees_remove hg source).tidy _
  lists_iff := by
    intro file k
    rw [lists_record hg, deps_record]
    split
    · next h =>
      have hfile : k.file.components = source.file.components := congrArg Prod.fst h
      rw [exists_mem_others, hfile]
    · exact hg.lists_iff

end Graph

end HotComponents
