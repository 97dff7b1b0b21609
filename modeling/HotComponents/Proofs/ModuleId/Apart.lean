import HotComponents.Proofs.ModuleId.Resolved

/-!
# Modules are told apart

An identifier is written for one file and one list of flags. A path that is written as it is holds
no `%`, and one that is escaped always does, so the two forms never meet, not even where a path looks
like an escaped one; and the first `?` ends the file. The flags are read off their pieces, so this
holds of any list of them, also of one in which a flag stands twice.

* `Query.text_inj`: the text of a query determines its flags and their order;
* `identifiers_tell_modules_apart`: what one identifier is written for is one.
-/

namespace HotComponents.ModuleId

open Text

/-- The text of a query determines its flags and their order. -/
theorem Query.text_inj {q q' : Query} (h : q.text = q'.text) : q = q' := by
  have hpairs : q.flags.map Flag.pair = q'.flags.map Flag.pair := by
    rw [← formPairs_text, ← formPairs_text, h]
  obtain ⟨flags⟩ := q
  obtain ⟨flags'⟩ := q'
  exact congrArg Query.mk (List.map_injective_iff.2 (fun _ _ => Flag.pair_inj) hpairs)

/-- What stands behind a file determines the query, also where nothing does. -/
theorem query_eq_of_written {q q' : Query}
    (h : (if q.isEmpty then none else some q.text) = if q'.isEmpty then none else some q'.text) :
    q = q' := by
  have htext (p : Query) : (if p.isEmpty then none else some p.text).getD "" = p.text := by
    split
    · next hnone =>
      -- without flags there is nothing to write
      rw [Query.isEmpty, List.isEmpty_iff] at hnone
      rw [Query.text, hnone]
      rfl
    · rfl
  apply Query.text_inj
  rw [← htext q, h, htext q']

/-- Two requests for absolute files are written as one identifier exactly if their files have the
same text and they have the same flags in the same order, whatever their flags are. So main modules
of different files have different identifiers, and none has that of a stylesheet. -/
theorem identifiers_tell_modules_apart :
    (∀ r r' : Request, r.file.isAbsolute → r'.file.isAbsolute →
      (serialize r = serialize r' ↔ r.file.text = r'.file.text ∧ r.query.flags = r'.query.flags)) ∧
    (∀ file file' : FilePath, file.isAbsolute → file'.isAbsolute →
      (mainId file = mainId file' ↔ file.text = file'.text)) ∧
    ∀ (file : FilePath) (r : Request), file.isAbsolute → mainId file ≠ styleId r := by
  have hfiles {file file' : FilePath} : file = file' ↔ file.text = file'.text := by
    rw [FilePath.mk.injEq]
  refine ⟨?_, ?_, ?_⟩
  · intro r r' habsolute habsolute'
    constructor
    · intro hsame
      have hcut := splitId_serialize habsolute
      rw [hsame, splitId_serialize habsolute', Prod.mk.injEq] at hcut
      have hfile := writeFile_inj habsolute habsolute' hcut.1.symm
      have hquery := query_eq_of_written hcut.2.symm
      exact ⟨congrArg FilePath.text hfile, congrArg Query.flags hquery⟩
    · rintro ⟨hfile, hflags⟩
      have hquery : r.query = r'.query := congrArg Query.mk hflags
      rw [serialize_eq, serialize_eq, hfiles.2 hfile, hquery]
  · intro file file' habsolute habsolute'
    constructor
    · intro hsame
      exact hfiles.1 (writeFile_inj habsolute habsolute' hsame)
    · intro htext
      rw [hfiles.2 htext]
  · intro file r habsolute
    exact mainId_ne_styleId habsolute r

/-- A path that looks like the identifier of an escaped one has an identifier of its own, and the
requests of browser and server for one module, with a flag that stands twice, have the same. -/
theorem identifiers_tell_modules_apart_lookalike :
    let card : FilePath := ⟨"/lib/a?b.svelte"⟩
    let lookalike : FilePath := ⟨"/@fs/lib/a%3Fb.svelte"⟩
    let browser : Request := ⟨⟨"/@fs/50%?\x01ü.svelte"⟩, "", ⟨[.langCss, .raw, .langCss]⟩, .dom, none⟩
    let server : Request := { browser with target := .ssr, timestamp := some 7 }
    mainId card = lookalike.text ∧ mainId card ≠ mainId lookalike ∧
    serialize browser = serialize server ∧ browser.file.text = server.file.text ∧
    browser.query.flags = server.query.flags ∧ mainId lookalike ≠ styleId browser := by
  intro card lookalike browser server
  obtain ⟨hrequests, hfiles, hkinds⟩ := identifiers_tell_modules_apart
  have hsame : serialize browser = serialize server := rfl
  obtain ⟨htext, hflags⟩ := (hrequests browser server (by decide) (by decide)).1 hsame
  refine ⟨by decide, fun halike => ?_, hsame, htext, hflags, hkinds lookalike browser (by decide)⟩
  have htexts := (hfiles card lookalike (by decide) (by decide)).1 halike
  exact absurd htexts (by decide)

end HotComponents.ModuleId
