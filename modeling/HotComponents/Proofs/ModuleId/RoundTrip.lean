import HotComponents.ModuleId.Codec
import HotComponents.Proofs.FilePath
import HotComponents.Proofs.ModuleId.Query

/-!
# Identifiers read back

A request that was read from an identifier is written as an identifier again, and that identifier
reads as the same request with one exception. The prefix `/@fs/` is put before a file only to escape
a `?` or a `%` of its path; a file whose own path begins with `/@fs/` and needs no escape is written
as it is, and read again as the file behind the prefix.

* `read_eq_ok_iff`: what must hold of an identifier for a request to be read from it;
* `readFile_writeFile`: an absolute file that is not disguised reads back;
* `readFile_writeFile_of_isDisguised`: one that is reads as the file behind its prefix;
* `serialized_reads_back_unless_disguised`: a request reads back exactly when its file does.
-/

namespace HotComponents

/-! ## Options that were accepted -/

/-- Options that were accepted have an absolute root. -/
theorem Settings.isAbsolute_root_of_resolve {s : Settings} {workingDirectory : FilePath}
    {o : Options} (haccepted : s.resolve workingDirectory = .ok o) : o.root.isAbsolute := by
  simp only [Settings.resolve, bind, Except.bind, throw, throwThe, MonadExceptOf.throw, pure,
    Except.pure] at haccepted
  -- every check but the last one only refuses; the last one is about the root
  repeat' split at haccepted
  all_goals first
    | contradiction
    | next habsolute =>
      rw [← Except.ok.inj haccepted]
      simpa using habsolute

namespace ModuleId

open Text

/-! ## Where an identifier is cut -/

theorem splitFirst?_of_notMem {sep : Char} {cs : List Char} (h : sep ∉ cs) :
    splitFirst? sep cs = none := by
  induction cs with
  | nil => rfl
  | cons c cs ih =>
    rw [List.mem_cons, not_or] at h
    rw [splitFirst?, if_neg (Ne.symm h.1), ih h.2, Option.map_none]

theorem splitFirst?_append {sep : Char} {before : List Char} (h : sep ∉ before)
    (after : List Char) : splitFirst? sep (before ++ sep :: after) = some (before, after) := by
  induction before with
  | nil => rw [List.nil_append, splitFirst?, if_pos rfl]
  | cons c cs ih =>
    rw [List.mem_cons, not_or] at h
    rw [List.cons_append, splitFirst?, if_neg (Ne.symm h.1), ih h.2, Option.map_some]

/-! ## The file of an identifier -/

/-- The path itself begins as identifiers of files outside the root do, and holds nothing that is
escaped. -/
def isDisguised (file : FilePath) : Bool :=
  outsidePrefix.isPrefixOf file.text.toList && file.text.toList.all fun c => c != '?' && c != '%'

theorem isDisguised_iff {file : FilePath} :
    isDisguised file ↔
      (∃ rest, file.text.toList = outsidePrefix ++ rest) ∧
      '?' ∉ file.text.toList ∧ '%' ∉ file.text.toList := by
  have hletters : (file.text.toList.all fun c => c != '?' && c != '%') = true ↔
      '?' ∉ file.text.toList ∧ '%' ∉ file.text.toList := by
    rw [List.all_eq_true]
    constructor
    · intro hplain
      exact ⟨fun h => by simpa using hplain _ h, fun h => by simpa using hplain _ h⟩
    · rintro ⟨hquestion, hpercent⟩ c hc
      rw [Bool.and_eq_true, bne_iff_ne, bne_iff_ne]
      exact ⟨fun h => hquestion (h ▸ hc), fun h => hpercent (h ▸ hc)⟩
  have hstart : outsidePrefix.isPrefixOf file.text.toList = true ↔
      ∃ rest, file.text.toList = outsidePrefix ++ rest := by
    rw [List.isPrefixOf_iff_prefix]
    exact exists_congr fun rest => eq_comm
  rw [isDisguised, Bool.and_eq_true, hletters, hstart]

/-- The file that a disguised path is taken for: what stands behind the prefix. -/
def unmasked (file : FilePath) : FilePath :=
  .ofChars ('/' :: file.text.toList.drop outsidePrefix.length)

section Absolute

variable {file : FilePath} (habsolute : file.isAbsolute)
include habsolute

/-- A file is written escaped behind the prefix, if it must be, or as it is. -/
theorem writeFile_cases :
    (∃ rest, file.text.toList = '/' :: rest ∧ (∃ c ∈ rest, c = '?' ∨ c = '%') ∧
      writeFile file = String.ofList (outsidePrefix ++ percentEncode mustEscape rest)) ∨
    ('?' ∉ file.text.toList ∧ '%' ∉ file.text.toList ∧ writeFile file = file.text) := by
  obtain ⟨rest, htext⟩ := FilePath.exists_text_of_isAbsolute habsolute
  simp only [writeFile, htext]
  split
  · next hescaped =>
    refine .inl ⟨rest, rfl, ?_, rfl⟩
    simpa using hescaped
  · next hplain =>
    simp only [List.any_eq_true, decide_eq_true_eq, not_exists, not_and] at hplain
    refine .inr ⟨?_, ?_, rfl⟩
    · rw [List.mem_cons, not_or]
      exact ⟨by decide, fun h => hplain _ h (.inl rfl)⟩
    · rw [List.mem_cons, not_or]
      exact ⟨by decide, fun h => hplain _ h (.inr rfl)⟩

/-- No `?` stands in a written file, so the first one of an identifier begins its query. -/
theorem notMem_writeFile : '?' ∉ (writeFile file).toList := by
  obtain ⟨rest, -, -, hwritten⟩ | ⟨hplain, -, hwritten⟩ := writeFile_cases habsolute
  · have hencoded : '?' ∉ percentEncode mustEscape rest :=
      notMem_percentEncode (by decide) (by decide) (by decide) rest
    rw [hwritten, String.toList_ofList, List.mem_append, not_or]
    exact ⟨by decide, hencoded⟩
  · rwa [hwritten]

/-- An absolute file that is not disguised reads back. -/
theorem readFile_writeFile (o : Options) (hplain : isDisguised file = false) :
    readFile o (writeFile file) = file := by
  obtain ⟨rest, htext, -, hwritten⟩ | ⟨hquestion, hpercent, hwritten⟩ := writeFile_cases habsolute
  · have hstripped : stripPrefix? outsidePrefix (writeFile file).toList =
        some (percentEncode mustEscape rest) := by
      rw [hwritten, String.toList_ofList]
      exact stripPrefix?_eq_some_iff.2 rfl
    simp only [readFile, hstripped]
    rw [percentDecode_percentEncode (by decide), ← htext]
    simp [FilePath.ofChars]
  · -- what else begins with the prefix holds a sign that is escaped
    have hunprefixed : stripPrefix? outsidePrefix file.text.toList = none := by
      refine Option.eq_none_iff_forall_ne_some.2 fun rest hprefixed => ?_
      have hdisguised : isDisguised file :=
        isDisguised_iff.2 ⟨⟨rest, stripPrefix?_eq_some_iff.1 hprefixed⟩, hquestion, hpercent⟩
      rw [hplain] at hdisguised
      cases hdisguised
    simp only [readFile, hwritten, hunprefixed]
    exact FilePath.join_of_isAbsolute habsolute

end Absolute

section Disguised

variable {file : FilePath} (hdisguised : isDisguised file)
include hdisguised

theorem isAbsolute_of_isDisguised : file.isAbsolute := by
  obtain ⟨⟨rest, htext⟩, -, -⟩ := isDisguised_iff.1 hdisguised
  simp [FilePath.isAbsolute, htext, outsidePrefix]

/-- A disguised file reads as the file behind its prefix. -/
theorem readFile_writeFile_of_isDisguised (o : Options) :
    readFile o (writeFile file) = unmasked file := by
  obtain ⟨⟨rest, htext⟩, hquestion, hpercent⟩ := isDisguised_iff.1 hdisguised
  have hwritten : writeFile file = file.text := by
    obtain ⟨rest, hslash, ⟨c, hc, hsign⟩, -⟩ | ⟨-, -, hwritten⟩ :=
      writeFile_cases (isAbsolute_of_isDisguised hdisguised)
    · have hhere : c ∈ file.text.toList := hslash ▸ List.mem_cons_of_mem _ hc
      rcases hsign with rfl | rfl
      · exact absurd hhere hquestion
      · exact absurd hhere hpercent
    · exact hwritten
  have hplain : '%' ∉ rest := fun h => hpercent (htext ▸ List.mem_append_right _ h)
  have hstripped : stripPrefix? outsidePrefix file.text.toList = some rest :=
    stripPrefix?_eq_some_iff.2 htext
  simp only [readFile, hwritten, hstripped]
  rw [percentDecode_of_notMem hplain, unmasked, htext, List.drop_left]

/-- The file behind the prefix is another one: it has a component less. -/
theorem components_unmasked_ne : (unmasked file).components ≠ file.components := by
  obtain ⟨⟨rest, htext⟩, -, -⟩ := isDisguised_iff.1 hdisguised
  have self : file = .ofChars ('/' :: "@fs/".toList ++ rest) := by
    rw [FilePath.ofChars, show '/' :: "@fs/".toList ++ rest = file.text.toList from htext.symm,
      String.ofList_toList]
  have hbehind : unmasked file = .ofChars ('/' :: rest) := by
    rw [unmasked, htext, List.drop_left]
  have hparts : splitOn '/' ("@fs/".toList ++ rest) = "@fs".toList :: splitOn '/' rest := by
    have hentry : splitOn '/' "@fs".toList = ["@fs".toList] := by decide
    have hcut := splitOn_append_sep '/' "@fs".toList rest
    rw [hentry] at hcut
    exact hcut
  intro hsame
  have hlength := congrArg List.length hsame
  rw [hbehind, self, List.cons_append, FilePath.components_ofChars_root,
    FilePath.components_ofChars_root, hparts, List.filterMap_cons] at hlength
  simp [FilePath.Component.ofPart?] at hlength

end Disguised

/-! ## Requests -/

/-- What must hold of an identifier for a request to be read from it. -/
theorem read_eq_ok_iff {o : Options} {id : String} {target : Target} {timestamp : Option Nat}
    {r : Request} : read o id target timestamp = .ok r ↔
      (¬((splitId id).1.isEmpty ∨ (splitId id).1.toList.head? = some '\x00')) ∧
      (splitId id).2.elim (.ok .empty) Query.parse = .ok r.query ∧ r.query.isAsset = false ∧
      (r.query.isMarked || o.owns r.file.text) ∧
      r = ⟨readFile o (splitId id).1, showFile o r.file, r.query, target, timestamp⟩ := by
  simp only [read, bind, Except.bind, throw, throwThe, MonadExceptOf.throw, pure, Except.pure]
  split
  · next hunnamed => exact ⟨(by intro h; cases h), fun h => absurd hunnamed h.1⟩
  · next hnamed =>
    constructor
    · intro h
      split at h
      · next q hparsed =>
        split at h
        · cases h
        · next hnotAsset =>
          split at h
          · cases h
          · next howned =>
            obtain rfl := Except.ok.inj h
            refine ⟨hnamed, hparsed, by simpa using hnotAsset, ?_, rfl⟩
            rwa [← Bool.not_or, Bool.not_eq_true, Bool.not_eq_false'] at howned
      · cases h
    · rintro ⟨-, hparsed, hnotAsset, howned, self⟩
      have hfile : r.file = readFile o (splitId id).1 := congrArg Request.file self
      rw [hfile] at howned
      have hnotUnowned :
          ¬((!r.query.isMarked && !o.owns (readFile o (splitId id).1).text) = true) := by
        rw [← Bool.not_or, howned]
        decide
      simp only [hparsed, hnotAsset, Bool.false_eq_true, if_false, if_neg hnotUnowned]
      exact congrArg Except.ok (hfile ▸ self).symm

/-- No key stands twice in the query of a request that was read. -/
theorem distinct_of_read {o : Options} {id : String} {target : Target} {timestamp : Option Nat}
    {r : Request} (h : read o id target timestamp = .ok r) : r.query.Distinct := by
  obtain ⟨-, hparsed, -⟩ := read_eq_ok_iff.1 h
  cases hraw : (splitId id).2 with
  | none =>
    rw [hraw] at hparsed
    exact Except.ok.inj hparsed ▸ Query.distinct_empty
  | some text =>
    rw [hraw] at hparsed
    exact Query.distinct_of_parse hparsed

/-- An identifier is cut where its file ends. -/
theorem splitId_serialize {r : Request} (habsolute : r.file.isAbsolute) :
    splitId (serialize r) =
      (writeFile r.file, if r.query.isEmpty then none else some r.query.text) := by
  have hnoQuestion := notMem_writeFile habsolute
  unfold serialize
  split
  · rw [splitId, splitFirst?_of_notMem hnoQuestion]
  · simp only [splitId, String.toList_append]
    rw [List.append_assoc, show "?".toList = ['?'] from rfl, List.singleton_append,
      splitFirst?_append hnoQuestion]
    simp only [String.ofList_toList]

/-- The query behind a written file reads as the query, the empty one where there is none. -/
theorem parse_written {q : Query} (hdistinct : q.Distinct) :
    (if q.isEmpty then none else some q.text).elim (.ok .empty) Query.parse = .ok q := by
  split
  · next hempty =>
    obtain ⟨flags⟩ := q
    rw [Query.isEmpty, List.isEmpty_iff] at hempty
    subst hempty
    rfl
  · exact Query.parse_text hdistinct

/-- A written file is not nothing, and does not begin as identifiers that are no files do. -/
theorem named_writeFile {file : FilePath} (habsolute : file.isAbsolute) :
    ¬((writeFile file).isEmpty ∨ (writeFile file).toList.head? = some '\x00') := by
  have hstart : (writeFile file).toList.head? = some '/' := by
    obtain ⟨rest, -, -, hwritten⟩ | ⟨-, -, hwritten⟩ := writeFile_cases habsolute
    · rw [hwritten, String.toList_ofList]
      rfl
    · obtain ⟨rest, htext⟩ := FilePath.exists_text_of_isAbsolute habsolute
      rw [hwritten, htext, List.head?_cons]
  rintro (hempty | hnul)
  · rw [String.isEmpty_iff.1 hempty] at hstart
    cases hstart
  · rw [hstart] at hnul
    cases hnul

section Reading

variable {o : Options} (hroot : o.root.isAbsolute) {id : String} {target : Target}
  {timestamp : Option Nat} {r : Request} (h : read o id target timestamp = .ok r)
include hroot h

/-- The file of a request that was read is absolute. -/
theorem isAbsolute_of_read : r.file.isAbsolute := by
  have self : r.file = readFile o (splitId id).1 :=
    congrArg Request.file (read_eq_ok_iff.1 h).2.2.2.2
  rw [self, readFile]
  split
  · exact FilePath.isAbsolute_ofChars_root _
  · exact FilePath.isAbsolute_join hroot _

/-- A request whose file is not disguised reads back. -/
theorem read_serialize (hplain : isDisguised r.file = false) :
    read o (serialize r) r.target r.timestamp = .ok r := by
  obtain ⟨-, hparsed, hnotAsset, howned, self⟩ := read_eq_ok_iff.1 h
  have habsolute := isAbsolute_of_read hroot h
  have hback := readFile_writeFile habsolute o hplain
  have hdistinct := distinct_of_read h
  refine read_eq_ok_iff.2 ?_
  rw [splitId_serialize habsolute]
  refine ⟨named_writeFile habsolute, parse_written hdistinct, hnotAsset, howned, ?_⟩
  have hshown : showFile o r.file = r.shown := (congrArg Request.shown self).symm
  rw [hback, hshown]

/-- One whose file is disguised reads, if at all, as a request for another file. -/
theorem components_ne_of_read_serialize (hdisguised : isDisguised r.file) {r' : Request}
    (hagain : read o (serialize r) r.target r.timestamp = .ok r') :
    r'.file.components ≠ r.file.components := by
  have self : r'.file = readFile o (splitId (serialize r)).1 :=
    congrArg Request.file (read_eq_ok_iff.1 hagain).2.2.2.2
  rw [self, splitId_serialize (isAbsolute_of_read hroot h),
    readFile_writeFile_of_isDisguised hdisguised]
  exact components_unmasked_ne hdisguised

end Reading

/-- For options that were accepted, a request that was read from an identifier and written again
reads back, its file by its components and all else exactly, unless its file is disguised; and then
even the text of the file is the same. -/
theorem serialized_reads_back_unless_disguised {s : Settings} {workingDirectory : FilePath}
    {o : Options} {id : String} {target : Target} {timestamp : Option Nat} {r : Request}
    (haccepted : s.resolve workingDirectory = .ok o) (h : parse o id target timestamp = some r) :
    ((∃ r', parse o (serialize r) r.target r.timestamp = some r' ∧ r.same r') ↔
      isDisguised r.file = false) ∧
    (isDisguised r.file = false → parse o (serialize r) r.target r.timestamp = some r) := by
  have hroot := Settings.isAbsolute_root_of_resolve haccepted
  have horigin := parse_eq_some_iff.1 h
  have hback : isDisguised r.file = false →
      parse o (serialize r) r.target r.timestamp = some r :=
    fun hplain => parse_eq_some_iff.2 (read_serialize hroot horigin hplain)
  refine ⟨⟨?_, fun hplain => ⟨r, hback hplain, by simp [Request.same, FilePath.same]⟩⟩, hback⟩
  rintro ⟨r', hagain, hsame⟩
  rw [← Bool.not_eq_true]
  intro hdisguised
  have hother := components_ne_of_read_serialize hroot horigin hdisguised (parse_eq_some_iff.1 hagain)
  simp only [Request.same, Bool.and_eq_true] at hsame
  exact hother (FilePath.same_iff.1 hsame.1.1.1.1).symm

/-- A file below a directory `/@fs` is served by the identifier that puts the prefix before it, but
is written without a prefix of its own, which reads as a file below the root. -/
theorem serialized_reads_back_unless_disguised_twice :
    let o := Options.atRoot ⟨"/app"⟩
    let card : Request := requestFor o ⟨"/@fs/lib/Card.svelte"⟩ .dom
    ({ root := ⟨"/app"⟩ } : Settings).resolve ⟨"/"⟩ = .ok o ∧
    parse o "/@fs/@fs/lib/Card.svelte" .dom none = some card ∧
    ¬∃ r', parse o (serialize card) card.target card.timestamp = some r' ∧ card.same r' := by
  intro o card
  have haccepted : ({ root := ⟨"/app"⟩ } : Settings).resolve ⟨"/"⟩ = .ok o := rfl
  have hfile : readFile o "/@fs/@fs/lib/Card.svelte" = card.file := by
    have hstripped : stripPrefix? outsidePrefix "/@fs/@fs/lib/Card.svelte".toList =
        some "@fs/lib/Card.svelte".toList := by decide
    simp only [readFile, hstripped]
    rw [percentDecode_of_notMem (by decide)]
    decide
  have hparsed : parse o "/@fs/@fs/lib/Card.svelte" .dom none = some card := by
    have hwhole : splitId "/@fs/@fs/lib/Card.svelte" = ("/@fs/@fs/lib/Card.svelte", none) := by
      decide
    refine parse_eq_some_iff.2 (read_eq_ok_iff.2 ?_)
    rw [hwhole]
    refine ⟨by decide, rfl, rfl, by decide, ?_⟩
    rw [hfile]
    rfl
  refine ⟨haccepted, hparsed, fun hagain => ?_⟩
  have hplain := (serialized_reads_back_unless_disguised haccepted hparsed).1.1 hagain
  exact absurd hplain (by decide)

end ModuleId

end HotComponents
