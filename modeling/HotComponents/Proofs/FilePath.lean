import HotComponents.FilePath
import HotComponents.Text.Form
import Mathlib.Data.List.DropRight

/-!
# Absolute paths

A path is absolute when its text begins with a slash. That can be told by its components. What is
joined to an absolute directory is absolute, and so is the parent of an absolute path. Joining puts
components behind components, and what a file is called below a directory is the text that leads
from the one to the other.

* `FilePath.isAbsolute_iff`: a path is absolute when its first component is the root;
* `FilePath.isAbsolute_join`: what is joined to an absolute directory is absolute;
* `FilePath.isAbsolute_parent`: the parent of an absolute path is absolute;
* `FilePath.components_join`: the components of what is joined are those of both;
* `FilePath.components_directory`: the directory of a file has the components of the file but for
  the last one;
* `FilePath.components_join_congr`: what is the same is the same when it is joined to a directory;
* `FilePath.relativeTo?_eq_some`: what a path is called below a directory, joined to the directory,
  is the path by its components.
-/

namespace HotComponents

/-- A text without the separator is one part. -/
theorem Text.splitOn_of_notMem {sep : Char} {cs : List Char} (h : sep ∉ cs) :
    splitOn sep cs = [cs] := by
  induction cs with
  | nil => rfl
  | cons c cs ih =>
    rw [List.mem_cons, not_or] at h
    rw [splitOn, if_neg (Ne.symm h.1), ih h.2]

namespace FilePath

variable {p q dir : FilePath}

/-- An absolute path has the root and then what its parts stand for. -/
theorem components_ofChars_root (cs : List Char) :
    (ofChars ('/' :: cs)).components =
      .root :: (Text.splitOn '/' cs).filterMap Component.ofPart? := by
  have hstart : Text.splitOn '/' ('/' :: cs) = [] :: Text.splitOn '/' cs := by
    rw [Text.splitOn, if_pos rfl]
  simp [components, beginning, ofChars, hstart, Text.splitOn_ne_nil]

theorem isAbsolute_ofChars_root (cs : List Char) : (ofChars ('/' :: cs)).isAbsolute := by
  simp [isAbsolute, ofChars]

theorem exists_text_of_isAbsolute (h : p.isAbsolute) : ∃ cs, p.text.toList = '/' :: cs := by
  simp only [isAbsolute, beq_iff_eq] at h
  exact List.head?_eq_some_iff.1 h

/-- A path whose text begins with a slash begins with the root, and its parts are those behind it. -/
theorem beginning_of_text {cs : List Char} (htext : p.text.toList = '/' :: cs) :
    p.beginning = (some .root, Text.splitOn '/' cs) := by
  simp [beginning, htext, Text.splitOn, Text.splitOn_ne_nil]

/-- No part stands for the root. -/
theorem Component.ofPart?_ne_root (part : List Char) : Component.ofPart? part ≠ some .root := by
  unfold ofPart?
  split
  · simp
  · split <;> simp

/-- No part behind the beginning stands for a leading `.`. -/
theorem Component.ofPart?_ne_here (part : List Char) : Component.ofPart? part ≠ some .here := by
  unfold ofPart?
  split
  · simp
  · split <;> simp

/-- A path whose text does not begin with a slash does not begin with the root. -/
theorem fst_beginning_ne_root {c : Char} {cs : List Char} (htext : p.text.toList = c :: cs)
    (hc : c ≠ '/') : p.beginning.1 ≠ some .root := by
  obtain ⟨part, parts, hparts⟩ : ∃ part parts, Text.splitOn '/' (c :: cs) = (c :: part) :: parts := by
    rw [Text.splitOn, if_neg hc]
    split
    · exact ⟨[], [], rfl⟩
    · exact ⟨_, _, rfl⟩
  unfold beginning
  rw [htext, hparts]
  simp only [reduceCtorEq, if_false]
  split <;> simp

/-- A path is absolute when its first component is the root. -/
theorem isAbsolute_iff : p.isAbsolute ↔ p.components.head? = some .root := by
  have hnot (hbegins : p.beginning.1 ≠ some .root) : p.components.head? ≠ some .root := by
    intro hhead
    unfold components at hhead
    cases hstart : p.beginning.1 with
    | some first =>
      simp only [hstart, Option.toList_some, List.cons_append, List.head?_cons] at hhead
      exact hbegins (hstart.trans hhead)
    | none =>
      simp only [hstart, Option.toList_none, List.nil_append] at hhead
      obtain ⟨part, _, hpart⟩ := List.mem_filterMap.1 (List.mem_of_mem_head? hhead)
      exact Component.ofPart?_ne_root part hpart
  cases htext : p.text.toList with
  | nil =>
    have hbegins : p.beginning.1 ≠ some .root := by simp [beginning, htext, Text.splitOn]
    simp [isAbsolute, htext, hnot hbegins]
  | cons c cs =>
    by_cases hc : c = '/'
    · subst hc
      have hp : p = ofChars ('/' :: cs) := by
        rw [ofChars, ← htext, String.ofList_toList]
      rw [hp, components_ofChars_root]
      simp [isAbsolute_ofChars_root]
    · simp [isAbsolute, htext, hc, hnot (fst_beginning_ne_root htext hc)]

/-- What is joined to an absolute directory is absolute. -/
theorem isAbsolute_join (hdir : dir.isAbsolute) (p : FilePath) : (dir.join p).isAbsolute := by
  have hstarts : ∀ more : String, (⟨dir.text ++ more⟩ : FilePath).isAbsolute := by
    intro more
    simp only [isAbsolute, beq_iff_eq, String.toList_append] at hdir ⊢
    rw [List.head?_append, hdir, Option.some_or]
  unfold join
  split
  · next habsolute => exact habsolute
  split
  · next hempty =>
    rw [List.getLast?_eq_none_iff] at hempty
    simp [isAbsolute, hempty] at hdir
  · exact hstarts p.text
  · rw [String.append_assoc]
    exact hstarts ("/" ++ p.text)

/-- The parent of an absolute path is absolute. -/
theorem isAbsolute_parent (h : p.isAbsolute) (hdir : p.parent? = some dir) : dir.isAbsolute := by
  obtain ⟨cs, htext⟩ := exists_text_of_isAbsolute h
  unfold parent? at hdir
  rw [beginning_of_text htext] at hdir
  dsimp only at hdir
  split at hdir
  · next hhere => cases hhere
  · cases hdir
  · obtain rfl := Option.some.inj hdir
    exact isAbsolute_ofChars_root _

/-- The directory of an absolute file is absolute. The root is its own directory. -/
theorem isAbsolute_directory (h : p.isAbsolute) : (p.parent?.getD ⟨"/"⟩).isAbsolute := by
  cases hdir : p.parent? with
  | none => rfl
  | some dir => exact isAbsolute_parent h hdir

/-! ## Components behind the beginning -/

/-- What the parts of a text stand for behind the beginning of a path. -/
def entries (cs : List Char) : List Component := (Text.splitOn '/' cs).filterMap Component.ofPart?

@[simp] theorem entries_nil : entries [] = [] := by decide

theorem entries_append_slash (cs more : List Char) :
    entries (cs ++ '/' :: more) = entries cs ++ entries more := by
  rw [entries, Text.splitOn_append_sep, List.filterMap_append, entries, entries]

/-- An absolute path has the root and then what the parts of its text stand for. -/
theorem components_of_isAbsolute (h : p.isAbsolute) :
    p.components = .root :: entries p.text.toList := by
  obtain ⟨cs, htext⟩ := exists_text_of_isAbsolute h
  have hp : p = ofChars ('/' :: cs) := by rw [ofChars, ← htext, String.ofList_toList]
  have hentries : entries ('/' :: cs) = entries cs := by
    simpa using entries_append_slash [] cs
  rw [htext, hentries, hp, components_ofChars_root, entries]

/-- Joining puts the components of a relative path behind those of the directory, whether or not
the directory is written with a slash at its end. -/
theorem components_join (hdir : dir.isAbsolute) (hp : p.isAbsolute = false) :
    (dir.join p).components = dir.components ++ entries p.text.toList := by
  have hjoined : entries (dir.join p).text.toList =
      entries dir.text.toList ++ entries p.text.toList := by
    unfold join
    rw [if_neg (by simp [hp])]
    split
    · next hempty =>
      rw [List.getLast?_eq_none_iff] at hempty
      simp [isAbsolute, hempty] at hdir
    · next hends =>
      obtain ⟨start, htext⟩ := List.getLast?_eq_some_iff.1 hends
      rw [String.toList_append, htext, List.append_assoc, List.singleton_append,
        entries_append_slash, entries_append_slash, entries_nil, List.append_nil]
    · rw [String.toList_append, String.toList_append, List.append_assoc]
      exact entries_append_slash _ _
  rw [components_of_isAbsolute (isAbsolute_join hdir p), hjoined, components_of_isAbsolute hdir,
    List.cons_append]

/-! ## Parts -/

section Parts

variable {parts : List (List Char)}

@[simp] theorem filterMap_skipBlank (parts : List (List Char)) :
    (skipBlank parts).filterMap Component.ofPart? = parts.filterMap Component.ofPart? := by
  induction parts with
  | nil => rfl
  | cons part parts ih =>
    rw [skipBlank, List.dropWhile_cons]
    split
    · next hblank =>
      rw [List.filterMap_cons_none (Option.isNone_iff_eq_none.1 hblank)]
      exact ih
    · rfl

@[simp] theorem filterMap_trimBlank (parts : List (List Char)) :
    (trimBlank parts).filterMap Component.ofPart? = parts.filterMap Component.ofPart? := by
  rw [trimBlank, List.filterMap_reverse, filterMap_skipBlank, List.filterMap_reverse,
    List.reverse_reverse]

@[simp] theorem filterMap_dropComponents (n : Nat) (parts : List (List Char)) :
    (dropComponents n parts).filterMap Component.ofPart? =
      (parts.filterMap Component.ofPart?).drop n := by
  induction parts generalizing n with
  | nil => cases n <;> rfl
  | cons part parts ih =>
    cases n with
    | zero => rfl
    | succ n =>
      rw [dropComponents]
      cases hpart : Component.ofPart? part with
      | none => rw [Option.isNone_none, if_pos rfl, ih, List.filterMap_cons_none hpart]
      | some component =>
        rw [Option.isNone_some, if_neg (by decide), ih, List.filterMap_cons_some hpart,
          List.drop_succ_cons]

/-- No part stands for a leading `.`, so none is lost where those are left out. -/
theorem filter_filterMap_ofPart? (parts : List (List Char)) :
    (parts.filterMap Component.ofPart?).filter (· ≠ .here) = parts.filterMap Component.ofPart? := by
  refine List.filter_eq_self.2 fun component hmem => ?_
  obtain ⟨part, _, hpart⟩ := List.mem_filterMap.1 hmem
  rw [decide_eq_true_iff]
  rintro rfl
  exact Component.ofPart?_ne_here part hpart

theorem isSuffix_skipBlank (parts : List (List Char)) : skipBlank parts <:+ parts :=
  List.dropWhile_suffix _

/-- The first part that is left stands for a component. -/
theorem ofPart?_head?_skipBlank {part : List Char} (h : (skipBlank parts).head? = some part) :
    Component.ofPart? part ≠ none := by
  have hkept := List.head?_dropWhile_not (fun part => (Component.ofPart? part).isNone) parts
  rw [← skipBlank, h] at hkept
  simpa [Option.isSome_iff_ne_none] using hkept

theorem isPrefix_trimBlank (parts : List (List Char)) : trimBlank parts <+: parts :=
  List.rdropWhile_prefix _ parts

/-- What is left of parts ends in one that stands for a component, so without it there are all the
components but the last one. -/
theorem filterMap_dropLast_trimBlank (parts : List (List Char)) :
    (trimBlank parts).dropLast.filterMap Component.ofPart? =
      (parts.filterMap Component.ofPart?).dropLast := by
  rw [← filterMap_trimBlank parts]
  rcases List.eq_nil_or_concat (trimBlank parts) with hnil | ⟨front, last, hsplit⟩
  · rw [hnil, List.dropLast_nil, List.filterMap_nil, List.dropLast_nil]
  · rw [List.concat_eq_append] at hsplit
    have hhead : (skipBlank parts.reverse).head? = some last := by
      rw [← List.reverse_reverse (skipBlank parts.reverse), ← trimBlank, hsplit, List.reverse_concat,
        List.head?_cons]
    obtain ⟨component, hcomponent⟩ := Option.ne_none_iff_exists'.1 (ofPart?_head?_skipBlank hhead)
    rw [hsplit, List.dropLast_concat, List.filterMap_append, List.filterMap_cons_some hcomponent,
      List.filterMap_nil, List.dropLast_concat]

theorem isSuffix_dropComponents (n : Nat) (parts : List (List Char)) :
    dropComponents n parts <:+ parts := by
  induction parts generalizing n with
  | nil => cases n <;> exact List.suffix_refl _
  | cons part parts ih =>
    cases n with
    | zero => exact List.suffix_refl _
    | succ n =>
      rw [dropComponents]
      split
      · exact (ih (n + 1)).trans (List.suffix_cons _ _)
      · exact (ih n).trans (List.suffix_cons _ _)

/-- A text put together from parts has the components they stand for. -/
theorem entries_partsText (hparts : ∀ part ∈ parts, '/' ∉ part) :
    entries (partsText parts) = parts.filterMap Component.ofPart? := by
  induction parts with
  | nil => exact entries_nil
  | cons part parts ih =>
    have hpart : entries part = [part].filterMap Component.ofPart? := by
      rw [entries, Text.splitOn_of_notMem (hparts part List.mem_cons_self)]
    cases parts with
    | nil => rw [partsText, List.intercalate_singleton, hpart]
    | cons next more =>
      rw [partsText, List.intercalate_cons_cons, List.append_assoc, List.singleton_append,
        entries_append_slash, hpart, ← partsText,
        ih fun part h => hparts part (List.mem_cons_of_mem _ h), ← List.filterMap_append,
        List.singleton_append]

/-- A text put together from parts begins with no slash if its first part stands for something. -/
theorem head?_partsText_ne (hparts : ∀ part ∈ parts, '/' ∉ part)
    (hhead : ∀ part ∈ parts.head?, Component.ofPart? part ≠ none) :
    (partsText parts).head? ≠ some '/' := by
  cases parts with
  | nil => simp [partsText]
  | cons part parts =>
    cases part with
    | nil => exact absurd rfl (hhead [] rfl)
    | cons c cs =>
      have hslash : c ≠ '/' := fun h => hparts (c :: cs) List.mem_cons_self (h ▸ List.mem_cons_self)
      cases parts with
      | nil => simpa [partsText] using hslash
      | cons next more => simpa [partsText, List.intercalate_cons_cons] using hslash

end Parts

/-! ## Directories and what is joined to them -/

/-- The directory of an absolute file has the root and the components of the file behind it, but for
the last one. -/
theorem components_directory (h : p.isAbsolute) :
    (p.parent?.getD ⟨"/"⟩).components = .root :: p.components.tail.dropLast := by
  obtain ⟨cs, htext⟩ := exists_text_of_isAbsolute h
  have hbegins : p.beginning = (some .root, Text.splitOn '/' cs) := beginning_of_text htext
  have htail : p.components.tail = (Text.splitOn '/' cs).filterMap Component.ofPart? := by
    simp [components, hbegins]
  rw [htail, ← filterMap_dropLast_trimBlank]
  cases htrimmed : trimBlank (Text.splitOn '/' cs) with
  | nil =>
    have hnone : p.parent? = none := by simp [parent?, hbegins, htrimmed]
    rw [hnone]
    decide
  | cons part parts =>
    have hsome : p.parent? =
        some (ofChars ('/' :: partsText (trimBlank (part :: parts).dropLast))) := by
      simp [parent?, hbegins, htrimmed, assemble]
    have hslash : ∀ other ∈ trimBlank (part :: parts).dropLast, '/' ∉ other := by
      intro other hother
      have hmem : other ∈ trimBlank (Text.splitOn '/' cs) := by
        rw [htrimmed]
        exact List.dropLast_subset _ ((isPrefix_trimBlank _).mem hother)
      exact Text.sep_notMem_of_mem_splitOn ((isPrefix_trimBlank _).mem hmem)
    rw [hsome, Option.getD_some, components_ofChars_root, ← entries, entries_partsText hslash,
      filterMap_trimBlank]

/-- Behind the beginning of a relative path come its components but for a leading `.`. -/
theorem entries_of_relative (h : p.isAbsolute = false) :
    entries p.text.toList = p.components.filter (· ≠ .here) := by
  have hroot : p.components.head? ≠ some .root := fun hhead => by simp [isAbsolute_iff.2 hhead] at h
  unfold components beginning at hroot ⊢
  unfold entries
  cases hparts : Text.splitOn '/' p.text.toList with
  | nil => exact absurd hparts (Text.splitOn_ne_nil _ _)
  | cons first rest =>
    simp only [hparts] at hroot ⊢
    by_cases hempty : first = []
    · by_cases hlone : rest = []
      · simp [hempty, hlone, Component.ofPart?]
      · -- an empty part with another one behind it is the root
        simp [hempty, hlone] at hroot
    · rw [if_neg hempty]
      by_cases hdot : first = ['.']
      · have hnone : Component.ofPart? first = none := by rw [Component.ofPart?, if_pos (.inr hdot)]
        rw [if_pos hdot, List.filterMap_cons_none hnone, Option.toList_some, List.singleton_append,
          List.filter_cons_of_neg (by simp), filter_filterMap_ofPart?]
      · rw [if_neg hdot, Option.toList_none, List.nil_append, filter_filterMap_ofPart?]

/-- What a path joined to an absolute directory has for components: its own if it is absolute, else
those of the directory and behind them its own but for a leading `.`. -/
theorem components_join_eq (hdir : dir.isAbsolute) (p : FilePath) :
    (dir.join p).components =
      if p.isAbsolute then p.components else dir.components ++ p.components.filter (· ≠ .here) := by
  split
  · next habsolute => rw [join_of_isAbsolute habsolute]
  · next hrelative =>
    rw [Bool.not_eq_true] at hrelative
    rw [components_join hdir hrelative, entries_of_relative hrelative]

/-- Paths that are the same are the same when they are joined to a directory. -/
theorem components_join_congr (hdir : dir.isAbsolute) (h : p.components = q.components) :
    (dir.join p).components = (dir.join q).components := by
  have habsolute : p.isAbsolute = q.isAbsolute := by
    rw [Bool.eq_iff_iff, isAbsolute_iff, isAbsolute_iff, h]
  rw [components_join_eq hdir, components_join_eq hdir, habsolute, h]

/-! ## A path seen from a directory -/

/-- What an absolute path is called below a directory leads there from the directory: joined to it,
it is the path by its components. -/
theorem relativeTo?_eq_some (hp : p.isAbsolute) (hdir : dir.isAbsolute)
    (hbelow : dir.components <+: p.components) :
    ∃ rest, p.relativeTo? dir = some rest ∧ (dir.join ⟨rest⟩).components = p.components := by
  obtain ⟨cs, htext⟩ := exists_text_of_isAbsolute hp
  have hbegins : p.beginning = (some .root, Text.splitOn '/' cs) := beginning_of_text htext
  have hcomponents : p.components = .root :: (Text.splitOn '/' cs).filterMap Component.ofPart? := by
    simp [components, hbegins]
  have hused : dir.components.length = (entries dir.text.toList).length + 1 := by
    rw [components_of_isAbsolute hdir, List.length_cons]
  -- the parts that are left begin with one that stands for a component, or there are none
  let left := skipBlank (dropComponents (entries dir.text.toList).length (Text.splitOn '/' cs))
  have hslash : ∀ part ∈ trimBlank left, '/' ∉ part := by
    intro part hpart
    have hmem : part ∈ Text.splitOn '/' cs := (isSuffix_dropComponents _ _).mem
      ((isSuffix_skipBlank _).mem ((isPrefix_trimBlank left).mem hpart))
    exact Text.sep_notMem_of_mem_splitOn hmem
  have hhead : ∀ part ∈ (trimBlank left).head?, Component.ofPart? part ≠ none := by
    intro part hpart
    have hfirst : left.head? = some part := by
      obtain ⟨blanks, hleft⟩ := isPrefix_trimBlank left
      rw [← hleft, List.head?_append, hpart, Option.some_or]
    exact ofPart?_head?_skipBlank hfirst
  -- so what they are put together to is no absolute path, which would replace the directory
  have hrelative : (ofChars (partsText (trimBlank left))).isAbsolute = false := by
    simp only [isAbsolute, ofChars, String.toList_ofList, beq_eq_false_iff_ne]
    exact head?_partsText_ne hslash hhead
  refine ⟨String.ofList (partsText (trimBlank left)), ?_, ?_⟩
  · rw [relativeTo?]
    simp only [List.isPrefixOf_iff_prefix.2 hbelow, if_true, hbegins, hused]
    simp [left]
  · rw [components_of_isAbsolute hdir, hcomponents, List.cons_prefix_cons] at hbelow
    rw [← ofChars, components_join hdir hrelative, ofChars, String.toList_ofList,
      entries_partsText hslash, filterMap_trimBlank, filterMap_skipBlank, filterMap_dropComponents,
      components_of_isAbsolute hdir, hcomponents, List.cons_append]
    exact congrArg _ (List.prefix_iff_eq_append.1 hbelow.2)

/-- A path that is not below a directory has no name there. -/
theorem relativeTo?_eq_none (houtside : ¬dir.components <+: p.components) :
    p.relativeTo? dir = none := by
  rw [relativeTo?]
  exact if_neg (mt List.isPrefixOf_iff_prefix.1 houtside)

end FilePath

end HotComponents
