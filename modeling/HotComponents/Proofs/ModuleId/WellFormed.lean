import HotComponents.Proofs.ModuleId.RoundTrip

/-!
# Requests that were read are well formed

Whatever an identifier says, a request that is read from it has an absolute file, whether the file
was named behind the prefix, by an absolute path or below the root. Its flags passed the checks of
the query, and its file those of the options unless the identifier is marked. A file below the root
is shown by the path that leads to it from the root, and any other as it is written.

* `Settings.of_resolve`: what options that were accepted take over from the settings;
* `Request.WellFormed`: what holds of every request that was read;
* `wellFormed_of_parse`: it does, for any options that were accepted and any identifier.
-/

namespace HotComponents

/-- Where a whole list was gone through, each of its elements gave one of the results. -/
theorem exists_of_mapM_eq_ok {α β ε : Type} {f : α → Except ε β} {xs : List α} {ys : List β}
    (h : xs.mapM f = .ok ys) : ∀ x ∈ xs, ∃ y ∈ ys, f x = .ok y := by
  induction xs generalizing ys with
  | nil => simp
  | cons x xs ih =>
    simp only [List.mapM_cons, bind, Except.bind, pure, Except.pure] at h
    split at h
    · cases h
    · next y hfirst =>
      split at h
      · cases h
      · next more hrest =>
        obtain rfl := Except.ok.inj h
        intro x' hx'
        rcases List.mem_cons.1 hx' with rfl | hlater
        · exact ⟨y, List.mem_cons_self, hfirst⟩
        · obtain ⟨y', hy', hsame⟩ := ih hrest x' hlater
          exact ⟨y', List.mem_cons_of_mem _ hy', hsame⟩

/-- Options that were accepted have the extensions of the settings and a pattern for each of their
exclusions. -/
theorem Settings.of_resolve {s : Settings} {workingDirectory : FilePath} {o : Options}
    (haccepted : s.resolve workingDirectory = .ok o) :
    o.extensions = s.extensions ∧
    ∀ source ∈ s.exclude, ∃ p ∈ o.exclude, Pattern.ofString source = .ok p := by
  simp only [Settings.resolve, bind, Except.bind, throw, throwThe, MonadExceptOf.throw, pure,
    Except.pure] at haccepted
  -- every check but that of the exclusions only refuses
  repeat' split at haccepted
  all_goals first
    | contradiction
    | next hpatterns _ _ =>
      rw [← Except.ok.inj haccepted]
      refine ⟨rfl, fun source hsource => ?_⟩
      obtain ⟨p, hp, hread⟩ := exists_of_mapM_eq_ok hpatterns source hsource
      refine ⟨p, hp, ?_⟩
      split at hread
      · next hsame => rw [hsame, Except.ok.inj hread]
      · cases hread

namespace ModuleId

/-- What holds of a request that was read under some options, which were made from settings. -/
structure Request.WellFormed (s : Settings) (o : Options) (r : Request) : Prop where
  /-- The file is an absolute path. -/
  absolute : r.file.isAbsolute
  /-- No key stands twice among the flags. -/
  distinct : (r.query.flags.map Flag.key).Nodup
  /-- The file is not asked for as it is. -/
  notRaw : .raw ∉ r.query.flags
  /-- Nor is its address. -/
  notUrl : .url ∉ r.query.flags
  /-- Without the marker, the file ends in one of the extensions. -/
  named : .marker ∉ r.query.flags → ∃ e ∈ s.extensions, e.toList <:+ r.file.text.toList
  /-- Without the marker, no exclusion occurs in the file. -/
  notExcluded : .marker ∉ r.query.flags → ∀ source ∈ s.exclude,
    ∃ p, Pattern.ofString source = .ok p ∧ p.isMatch r.file.text = false
  /-- A file below the root is shown, behind a slash, by what leads to it from the root. -/
  below : o.root.components <+: r.file.components →
    ∃ rest, r.shown = "/" ++ rest ∧ (o.root.join ⟨rest⟩).components = r.file.components
  /-- Any other file is shown as it is written. -/
  elsewhere : ¬o.root.components <+: r.file.components → r.shown = r.file.text
  /-- The request for the stylesheet goes to the same record, and is for the stylesheet. -/
  style : r.styleRequest.key = r.key ∧ r.styleRequest.route = .style
  /-- The request for the main module goes to the same record, and is for the main module. -/
  main : r.mainRequest.key = r.key ∧ r.mainRequest.route = .main

section Owned

variable {s : Settings} {workingDirectory : FilePath} {o : Options}
  (haccepted : s.resolve workingDirectory = .ok o) {file : FilePath} (howned : o.owns file.text)
include haccepted howned

/-- A file that is owned ends in one of the extensions of the settings. -/
theorem named_of_owns : ∃ e ∈ s.extensions, e.toList <:+ file.text.toList := by
  obtain ⟨hnamed, -⟩ := Options.owns_iff.1 howned
  rw [Options.hasExtension, (Settings.of_resolve haccepted).1, List.any_eq_true] at hnamed
  obtain ⟨e, he, hends⟩ := hnamed
  exact ⟨e, he, List.isSuffixOf_iff_suffix.1 hends⟩

/-- In a file that is owned no exclusion of the settings occurs. -/
theorem notExcluded_of_owns : ∀ source ∈ s.exclude,
    ∃ p, Pattern.ofString source = .ok p ∧ p.isMatch file.text = false := by
  obtain ⟨-, hexcluded⟩ := Options.owns_iff.1 howned
  intro source hsource
  obtain ⟨p, hp, hread⟩ := (Settings.of_resolve haccepted).2 source hsource
  exact ⟨p, hread, hexcluded p hp⟩

end Owned

/-- For any options that were accepted and any identifier, a request that is read is well formed. -/
theorem wellFormed_of_parse {s : Settings} {workingDirectory : FilePath} {o : Options} {id : String}
    {target : Target} {timestamp : Option Nat} {r : Request}
    (haccepted : s.resolve workingDirectory = .ok o) (h : parse o id target timestamp = some r) :
    r.WellFormed s o := by
  have hroot := Settings.isAbsolute_root_of_resolve haccepted
  have horigin := parse_eq_some_iff.1 h
  obtain ⟨-, -, hnotAsset, howned, self⟩ := read_eq_ok_iff.1 horigin
  have habsolute := isAbsolute_of_read hroot horigin
  have hshown : r.shown = showFile o r.file := congrArg Request.shown self
  simp only [Query.isAsset, Query.has, Bool.or_eq_false_iff, List.contains_eq_mem,
    decide_eq_false_iff_not] at hnotAsset
  -- without the marker it is the options that let the file pass
  have hpassed (hunmarked : .marker ∉ r.query.flags) : o.owns r.file.text := by
    simpa [Query.isMarked, Query.has, hunmarked] using howned
  constructor
  case absolute => exact habsolute
  case distinct => exact distinct_of_read horigin
  case notRaw => exact hnotAsset.1
  case notUrl => exact hnotAsset.2
  case named => exact fun hunmarked => named_of_owns haccepted (hpassed hunmarked)
  case notExcluded => exact fun hunmarked => notExcluded_of_owns haccepted (hpassed hunmarked)
  case below =>
    intro hbelow
    obtain ⟨rest, hcalled, hleads⟩ := FilePath.relativeTo?_eq_some habsolute hroot hbelow
    exact ⟨rest, by rw [hshown, showFile, hcalled], hleads⟩
  case elsewhere =>
    intro houtside
    rw [hshown, showFile, FilePath.relativeTo?_eq_none houtside]
  case style => exact ⟨rfl, r.route_styleRequest⟩
  case main => exact ⟨rfl, r.route_mainRequest⟩

/-- A component beside the directory that the root is named after lies below the root by its
components, for the `..` in its path is one of them, and is shown by the path with the `..`. -/
theorem wellFormed_of_parse_beside :
    let s : Settings := { root := ⟨"/app/./web/"⟩ }
    let o : Options := { root := ⟨"/app/./web/"⟩ }
    let card : Request := ⟨⟨"/app/./web/..//lib/Card.svelte"⟩, "/..//lib/Card.svelte", ⟨[.direct]⟩,
      .dom, some 7⟩
    s.resolve ⟨"/"⟩ = .ok o ∧
    parse o "..//lib/Card.svelte?direct" .dom (some 7) = some card ∧ card.WellFormed s o := by
  intro s o card
  have haccepted : ({ root := ⟨"/app/./web/"⟩ } : Settings).resolve ⟨"/"⟩ =
      .ok { root := ⟨"/app/./web/"⟩ } := rfl
  have hparsed : parse o "..//lib/Card.svelte?direct" .dom (some 7) = some card := by
    have hcut : splitId "..//lib/Card.svelte?direct" = ("..//lib/Card.svelte", some "direct") := by
      decide
    have hquery : Query.parse "direct" = .ok ⟨[.direct]⟩ :=
      Query.parse_text (q := ⟨[.direct]⟩) (List.nodup_singleton _)
    refine parse_eq_some_iff.2 (read_eq_ok_iff.2 ?_)
    rw [hcut]
    exact ⟨by decide, hquery, rfl, by decide, by decide +kernel⟩
  exact ⟨haccepted, hparsed, wellFormed_of_parse haccepted hparsed⟩

end ModuleId

end HotComponents
