import HotComponents.Proofs.ModuleId.RoundTrip

/-!
# Which identifiers are one

Written identifiers tell apart what they are written for: two requests are written as one identifier
only if they name the same file, to the letter, with the same flags in the same order. A marked
identifier of a stylesheet resolves to what its request is written as. So other spellings of the
file and the flags of others make no difference to it, but tracked flags do, and so does their
order: only the three flags of a derived stylesheet, in their own order, resolve to the derived
identifier that hot updates report.

* `writeFile_inj`, `serialize_inj`: what is written as one identifier is one;
* `mainId_ne_styleId`, `styleId_inj`: the identifiers that hot updates report are told apart;
* `resolved_identifier_keeps_its_flags`: what identifiers of stylesheets resolve to.
-/

namespace HotComponents.ModuleId

open Text

/-! ## Files -/

/-- A sign that must be escaped leaves a `%` behind. -/
theorem percent_mem_percentEncode {rest : List Char} {c : Char} (hc : c ∈ rest)
    (hsign : c = '?' ∨ c = '%') : '%' ∈ percentEncode mustEscape rest := by
  apply Classical.byContradiction
  intro hplain
  -- A text without `%` is read as it is, so this one would be its own encoding.
  have hsame : percentEncode mustEscape rest = rest := by
    rw [← percentDecode_of_notMem hplain]
    exact percentDecode_percentEncode (by decide) rest
  have hquestion : '?' ∉ percentEncode mustEscape rest :=
    notMem_percentEncode (by decide) (by decide) (by decide) rest
  rw [hsame] at hplain hquestion
  rcases hsign with rfl | rfl
  · exact hquestion hc
  · exact hplain hc

/-- Absolute files that are written alike are written from one text. -/
theorem writeFile_inj {file file' : FilePath} (habsolute : file.isAbsolute)
    (habsolute' : file'.isAbsolute) (h : writeFile file = writeFile file') : file = file' := by
  have hext {f g : FilePath} (htext : f.text.toList = g.text.toList) : f = g := by
    obtain ⟨s⟩ := f
    obtain ⟨t⟩ := g
    rw [String.toList_inj] at htext
    exact congrArg FilePath.mk htext
  -- A file that is escaped is written with a `%`, and one that is not has none.
  have hescaped_ne {f g : FilePath} {rest : List Char} (hsigns : ∃ c ∈ rest, c = '?' ∨ c = '%')
      (hwritten : writeFile f = String.ofList (outsidePrefix ++ percentEncode mustEscape rest))
      (hpercent : '%' ∉ g.text.toList) (hwritten' : writeFile g = g.text) :
      writeFile f ≠ writeFile g := by
    obtain ⟨c, hc, hsign⟩ := hsigns
    intro hsame
    rw [hwritten, hwritten'] at hsame
    rw [← hsame, String.toList_ofList, List.mem_append, not_or] at hpercent
    exact hpercent.2 (percent_mem_percentEncode hc hsign)
  obtain ⟨rest, htext, hsigns, hwritten⟩ | ⟨-, hpercent, hwritten⟩ := writeFile_cases habsolute
  · obtain ⟨rest', htext', hsigns', hwritten'⟩ | ⟨-, hpercent', hwritten'⟩ := writeFile_cases habsolute'
    · rw [hwritten, hwritten', String.ofList_inj, List.append_cancel_left_eq] at h
      have hsame : rest = rest' := by
        rw [← @percentDecode_percentEncode mustEscape (by decide) rest, h]
        exact percentDecode_percentEncode (by decide) rest'
      exact hext (by rw [htext, htext', hsame])
    · exact absurd h (hescaped_ne hsigns hwritten hpercent' hwritten')
  · obtain ⟨rest', htext', hsigns', hwritten'⟩ | ⟨-, hpercent', hwritten'⟩ := writeFile_cases habsolute'
    · exact absurd h.symm (hescaped_ne hsigns' hwritten' hpercent hwritten)
    · exact hext (by rw [← hwritten, h, hwritten'])

/-! ## Identifiers -/

/-- Requests that are written alike name one file, with the same flags in the same order. -/
theorem serialize_inj {r r' : Request} (habsolute : r.file.isAbsolute)
    (habsolute' : r'.file.isAbsolute) (hdistinct : r.query.Distinct) (hdistinct' : r'.query.Distinct)
    (h : serialize r = serialize r') : r.file = r'.file ∧ r.query = r'.query := by
  have hcut := splitId_serialize habsolute
  rw [h, splitId_serialize habsolute', Prod.mk.injEq] at hcut
  obtain ⟨hfiles, hqueries⟩ := hcut
  refine ⟨writeFile_inj habsolute habsolute' hfiles.symm, ?_⟩
  -- What stands behind the file reads as the query of either request.
  have hparsed := parse_written hdistinct
  rw [← hqueries, parse_written hdistinct'] at hparsed
  exact (Except.ok.inj hparsed).symm

theorem distinct_style : Query.style.Distinct := by
  unfold Query.Distinct
  decide

/-- An identifier of a stylesheet is the written file, and the derived query behind a `?`. -/
theorem toList_styleId (r : Request) :
    (styleId r).toList = (writeFile r.file).toList ++ '?' :: Query.style.text.toList := by
  rw [styleId, serialize_eq]
  simp [Request.styleRequest, Query.style, Query.isEmpty]

/-- No main module has the identifier of a stylesheet. -/
theorem mainId_ne_styleId {file : FilePath} (habsolute : file.isAbsolute) (r : Request) :
    mainId file ≠ styleId r := by
  intro hsame
  have hquestion : '?' ∈ (styleId r).toList := by
    rw [toList_styleId]
    simp
  rw [← hsame] at hquestion
  exact notMem_writeFile habsolute hquestion

/-- Only the derived query makes an identifier the derived one. -/
theorem serialize_eq_styleId_iff {r : Request} (habsolute : r.file.isAbsolute)
    (hdistinct : r.query.Distinct) : serialize r = styleId r ↔ r.query = .style := by
  constructor
  · intro hsame
    exact (@serialize_inj r r.styleRequest habsolute habsolute hdistinct distinct_style hsame).2
  · intro hderived
    rw [styleId, Request.styleRequest, ← hderived]

/-! ## Resolved identifiers -/

theorem resolveVirtual_eq_some_iff {o : Options} {id : String} {target : Target} {v : String} :
    resolveVirtual o id target = some v ↔
      ∃ r, parse o id target = some r ∧ r.route = .style ∧ v = serialize r := by
  unfold resolveVirtual
  cases parse o id target with
  | none => simp
  | some r =>
    by_cases hstyle : r.route = .style
    · simp [hstyle, eq_comm]
    · simp [hstyle]

/-- What identifiers of stylesheets resolve to, for options that were accepted. Each resolves to what
its request is written as: its file in the one spelling that is written, and its tracked flags in
their order. That is the derived identifier, which goes by the file alone and is what hot updates
report, exactly if the flags are those of a derived stylesheet in their own order. Two identifiers
resolve to one exactly if they name one file and have the same tracked flags in the same order,
however they spell the file and whatever else they carry. -/
theorem resolved_identifier_keeps_its_flags {s : Settings} {workingDirectory : FilePath}
    {o : Options} (haccepted : s.resolve workingDirectory = .ok o) :
    (∀ (id : String) (target : Target) (v : String), resolveVirtual o id target = some v ↔
      ∃ r, parse o id target = some r ∧ r.route = .style ∧ v = serialize r) ∧
    (∀ (id : String) (target : Target) (r : Request), parse o id target = some r →
      styleId r = styleId (requestFor o r.file .dom) ∧
      (serialize r = styleId r ↔ r.query = .style)) ∧
    ∀ (id id' : String) (target target' : Target) (r r' : Request) (v v' : String),
      parse o id target = some r → parse o id' target' = some r' →
      resolveVirtual o id target = some v → resolveVirtual o id' target' = some v' →
      (v = v' ↔ r.file = r'.file ∧ r.query = r'.query) := by
  have hroot := Settings.isAbsolute_root_of_resolve haccepted
  refine ⟨fun id target v => resolveVirtual_eq_some_iff, ?_, ?_⟩
  · intro id target r h
    have horigin := parse_eq_some_iff.1 h
    exact ⟨rfl, serialize_eq_styleId_iff (isAbsolute_of_read hroot horigin) (distinct_of_read horigin)⟩
  · intro id id' target target' r r' v v' h h' hresolved hresolved'
    have horigin := parse_eq_some_iff.1 h
    have horigin' := parse_eq_some_iff.1 h'
    obtain ⟨own, hown, -, rfl⟩ := resolveVirtual_eq_some_iff.1 hresolved
    obtain ⟨own', hown', -, rfl⟩ := resolveVirtual_eq_some_iff.1 hresolved'
    obtain rfl := Option.some.inj (hown.symm.trans h)
    obtain rfl := Option.some.inj (hown'.symm.trans h')
    constructor
    · exact serialize_inj (isAbsolute_of_read hroot horigin) (isAbsolute_of_read hroot horigin')
        (distinct_of_read horigin) (distinct_of_read horigin')
    · rintro ⟨hfile, hquery⟩
      rw [serialize_eq, serialize_eq, hfile, hquery]

/-- The three flags of a derived stylesheet in another order: the identifier is one of a stylesheet
but resolves to itself, while one that spells the same file below the root resolves to the derived
identifier. -/
theorem resolved_identifier_keeps_its_flags_reordered :
    let o := Options.atRoot ⟨"/app"⟩
    let derived := "/app/A.svelte?svelte&type=style&lang.css"
    let reordered := "/app/A.svelte?type=style&svelte&lang.css"
    ({ root := ⟨"/app"⟩ } : Settings).resolve ⟨"/"⟩ = .ok o ∧
    resolveVirtual o "A.svelte?svelte&type=style&lang.css" .dom = some derived ∧
    resolveVirtual o reordered .dom = some reordered ∧
    styleId (requestFor o ⟨"/app/A.svelte"⟩ .dom) = derived ∧ derived ≠ reordered := by
  intro o derived reordered
  have haccepted : ({ root := ⟨"/app"⟩ } : Settings).resolve ⟨"/"⟩ = .ok o := rfl
  let first : Request := ⟨⟨"/app/A.svelte"⟩, "/A.svelte", .style, .dom, none⟩
  let second : Request :=
    ⟨⟨"/app/A.svelte"⟩, "/A.svelte", ⟨[.artifact .style, .marker, .langCss]⟩, .dom, none⟩
  have hfirst : parse o "A.svelte?svelte&type=style&lang.css" .dom = some first := by
    have hcut : splitId "A.svelte?svelte&type=style&lang.css" =
        ("A.svelte", some Query.style.text) := by decide
    refine parse_eq_some_iff.2 (read_eq_ok_iff.2 ?_)
    rw [hcut]
    exact ⟨by decide, Query.parse_text distinct_style, rfl, rfl, by decide⟩
  have hsecond : parse o reordered .dom = some second := by
    have hcut : splitId reordered = ("/app/A.svelte", some second.query.text) := by decide
    have hdistinct : second.query.Distinct := by
      unfold Query.Distinct
      decide
    refine parse_eq_some_iff.2 (read_eq_ok_iff.2 ?_)
    rw [hcut]
    exact ⟨by decide, Query.parse_text hdistinct, rfl, rfl, by decide⟩
  obtain ⟨hresolves, hderived, happart⟩ := resolved_identifier_keeps_its_flags haccepted
  have hfirst' : resolveVirtual o "A.svelte?svelte&type=style&lang.css" .dom = some derived :=
    (hresolves _ _ _).2 ⟨first, hfirst, rfl, by decide⟩
  have hsecond' : resolveVirtual o reordered .dom = some reordered :=
    (hresolves _ _ _).2 ⟨second, hsecond, rfl, by decide⟩
  refine ⟨haccepted, hfirst', hsecond', ?_, fun hsame => ?_⟩
  · exact (hderived _ _ _ hfirst).1.symm.trans (by decide)
  · have halike := ((happart _ _ _ _ _ _ _ _ hfirst hsecond hfirst' hsecond').1 hsame).2
    exact absurd halike (by decide)

end HotComponents.ModuleId
