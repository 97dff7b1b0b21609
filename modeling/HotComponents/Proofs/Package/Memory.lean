import HotComponents.Package.Resolver
import Mathlib.Data.Finset.Card

/-!
# The memory of a resolver

A resolver remembers the entries that it has found, each for all importers in one directory. If the
answer to a look-up depends on the package and that directory alone, nobody can tell: a resolver that
forgets before each import comes to the same results and gathers the same packages that hide their
manifest. What the memory changes is the number of look-ups, and that is known exactly.

* `truthful_step`: what is remembered is what a look-up would find, and stays so;
* `seen_step`: so one import comes to the same with and without the memory;
* `lookups_step`: which imports look a package up;
* `memory_is_invisible`: the same for sequences of imports.
-/

namespace HotComponents.Package

/-- The directory that an import is seen from: that of the importing file, or the importing path
itself if it is in none. -/
def importDirectory (importer : FilePath) : List FilePath.Component :=
  (importer.parent?.getD importer).components

/-- The answers to look-ups depend on the package and the importing directory alone. -/
def DirectoryBound (packages : Packages) : Prop :=
  ∀ (name : String) (p q : FilePath), importDirectory p = importDirectory q →
    packages name p = packages name q

/-- An import to resolve. -/
structure Import where
  /-- What is imported. -/
  importee : String
  /-- Where it is imported. -/
  importer? : Option FilePath

/-- The import and the directory, if the import has one and may name a package with an entry. -/
def Import.place? (i : Import) : Option (String × List FilePath.Component) :=
  if isCandidate i.importee then i.importer?.map fun importer => (i.importee, importDirectory importer)
  else none

/-- The resolution came to an entry. -/
def Resolver.Resolution.hasEntry (d : Resolver.Resolution) : Bool :=
  match d.result with
  | .ok (some _) => true
  | _ => false

namespace Resolver

variable {packages : Packages} {r r' : Resolver} {i : Import} {imports : List Import}
  {importee : String} {importer : FilePath} {entry : FilePath}

/-- The resolver with nothing remembered. -/
def forget (r : Resolver) : Resolver := { r with entries := [] }

/-- One import is resolved, by a resolver that remembers or by one that forgets before each
import. -/
def step (packages : Packages) (remembers : Bool) (r : Resolver) (i : Import) : Resolution :=
  (if remembers then r else r.forget).resolve packages i.importee i.importer?

/-- Imports resolved one after another, each with its resolution. -/
def resolutions (packages : Packages) (remembers : Bool) (r : Resolver) :
    List Import → List (Import × Resolution)
  | [] => []
  | i :: imports =>
    (i, r.step packages remembers i) ::
      resolutions packages remembers (r.step packages remembers i).resolver imports

/-- The resolver behind a sequence of imports. -/
def behind (packages : Packages) (r : Resolver) (imports : List Import) : Resolver :=
  imports.foldl (fun r i => (r.step packages true i).resolver) r

/-- What is seen of a resolution: what it came to, and the packages that hide their manifest as they
are known by then. -/
def Resolution.seen (d : Resolution) : Except AccessFailure (Option FilePath) × HiddenManifests :=
  (d.result, d.resolver.hidden)

/-- The places from which resolutions came to an entry. -/
def placesFound (done : List (Import × Resolution)) : Finset (String × List FilePath.Component) :=
  ((done.filter fun d => d.2.hasEntry).filterMap fun d => d.1.place?).toFinset

/-- The number of resolutions that looked for an entry and came to none. -/
def missed (done : List (Import × Resolution)) : Nat :=
  done.countP fun d => d.1.place?.isSome && !d.2.hasEntry

/-! ## One import -/

/-- What is remembered is what a look-up would find. -/
def Truthful (packages : Packages) (r : Resolver) : Prop :=
  ∀ (importee : String) (importer entry : FilePath), r.remembered? importee importer = some entry →
    ∃ manifest, packages importee importer = .ok (some manifest) ∧ manifest.entry? = some entry

/-- The places that something is remembered for. -/
def known (r : Resolver) : Finset (String × List FilePath.Component) :=
  (r.entries.map Prod.fst).toFinset

theorem memoKey_eq (importee : String) (importer : FilePath) :
    memoKey importee importer = (importee, importDirectory importer) := rfl

theorem remembered?_eq_none_iff :
    r.remembered? importee importer = none ↔ memoKey importee importer ∉ r.known := by
  simp only [remembered?, known, Option.map_eq_none_iff, List.find?_eq_none, decide_eq_true_eq,
    List.mem_toFinset, List.mem_map, not_exists, not_and]

theorem remembered?_cons (r : Resolver) (key : String × List FilePath.Component)
    (entry : FilePath) (importee : String) (importer : FilePath) :
    ({ r with entries := (key, entry) :: r.entries } : Resolver).remembered? importee importer =
      if key = memoKey importee importer then some entry
      else r.remembered? importee importer := by
  unfold remembered?
  rw [List.find?_cons]
  by_cases h : key = memoKey importee importer <;> simp [h]

/-- What a look-up makes of a resolver: an entry that is found is remembered. -/
theorem lookUp_cases (packages : Packages) (r : Resolver) (importee : String)
    (importer : FilePath) :
    (∃ manifest entry, packages importee importer = .ok (some manifest) ∧
      manifest.entry? = some entry ∧ (r.lookUp packages importee importer).hasEntry ∧
      (r.lookUp packages importee importer).resolver =
        { r with
          entries := (memoKey importee importer, entry) :: r.entries
          lookups := r.lookups + 1 }) ∨
    ((r.lookUp packages importee importer).hasEntry = false ∧
      (r.lookUp packages importee importer).resolver.entries = r.entries ∧
      (r.lookUp packages importee importer).resolver.lookups = r.lookups + 1) := by
  unfold lookUp
  split
  · next manifest hfound =>
    cases hentry : manifest.entry? with
    | some entry => exact .inl ⟨manifest, entry, hfound, hentry, rfl, rfl⟩
    | none => exact .inr ⟨rfl, rfl, rfl⟩
  · exact .inr ⟨rfl, rfl, rfl⟩
  · exact .inr ⟨rfl, rfl, rfl⟩
  · exact .inr ⟨rfl, rfl, rfl⟩

/-- What an import comes to: it is no candidate, an entry is remembered for it, or its package is
looked up. -/
theorem resolve_cases (packages : Packages) (r : Resolver) (i : Import) :
    (i.place? = none ∧ r.resolve packages i.importee i.importer? = ⟨r, .ok none, []⟩) ∨
    ∃ importer, i.importer? = some importer ∧ i.place? = some (memoKey i.importee importer) ∧
      ((∃ entry, r.remembered? i.importee importer = some entry ∧
        r.resolve packages i.importee i.importer? = ⟨r, .ok (some entry), []⟩) ∨
      (r.remembered? i.importee importer = none ∧
        r.resolve packages i.importee i.importer? = r.lookUp packages i.importee importer)) := by
  cases himporter : i.importer? with
  | none => exact .inl ⟨by simp [Import.place?, himporter], rfl⟩
  | some importer =>
    by_cases hcandidate : isCandidate i.importee
    · refine .inr ⟨importer, rfl, by simp [Import.place?, himporter, hcandidate, memoKey_eq], ?_⟩
      cases hmemory : r.remembered? i.importee importer with
      | some entry => exact .inl ⟨entry, rfl, by simp [resolve, hcandidate, hmemory]⟩
      | none => exact .inr ⟨rfl, by simp [resolve, hcandidate, hmemory]⟩
    · exact .inl ⟨by simp [Import.place?, hcandidate], by simp [resolve, hcandidate]⟩

/-- What is remembered stays what a look-up would find. -/
theorem truthful_step (hpackages : DirectoryBound packages) (h : Truthful packages r)
    (i : Import) : Truthful packages (r.step packages true i).resolver := by
  change Truthful packages (r.resolve packages i.importee i.importer?).resolver
  rcases resolve_cases packages r i with
    ⟨_, hresolve⟩ | ⟨importer, _, _, ⟨entry, _, hresolve⟩ | ⟨_, hresolve⟩⟩
  · rwa [hresolve]
  · rwa [hresolve]
  · rw [hresolve]
    intro importee other entry' hmemory
    rcases lookUp_cases packages r i.importee importer with
      ⟨manifest, entry, hfound, hentry, _, hresolver⟩ | ⟨_, hentries, _⟩
    · rw [hresolver] at hmemory
      change ({ r with entries := (memoKey i.importee importer, entry) :: r.entries } :
        Resolver).remembered? importee other = some entry' at hmemory
      rw [remembered?_cons] at hmemory
      split at hmemory
      · -- The new entry serves all importers in the directory, and they are all answered alike.
        next hkey =>
        cases hmemory
        obtain ⟨rfl, hdirectory⟩ := Prod.mk.inj hkey
        exact ⟨manifest, (hpackages _ _ _ hdirectory).symm.trans hfound, hentry⟩
      · exact h importee other entry' hmemory
    · rw [remembered?, hentries] at hmemory
      exact h importee other entry' hmemory

/-- A look-up comes to the same whatever is remembered. -/
theorem seen_lookUp (hhidden : r.hidden = r'.hidden) :
    (r.lookUp packages importee importer).seen = (r'.lookUp packages importee importer).seen := by
  unfold lookUp
  split
  · next manifest _ =>
    cases manifest.entry? <;> simp [Resolution.seen, hhidden]
  · simp [Resolution.seen, hhidden]
  · simp [Resolution.seen, hhidden]
  · simp [Resolution.seen, hhidden]

/-- One import comes to the same with and without the memory. -/
theorem seen_step (h : Truthful packages r) (hhidden : r.hidden = r'.hidden)
    (i : Import) :
    (r.step packages true i).seen = (r'.step packages false i).seen := by
  have hnone (importer : FilePath) : r'.forget.remembered? i.importee importer = none := rfl
  change (r.resolve packages i.importee i.importer?).seen =
    (r'.forget.resolve packages i.importee i.importer?).seen
  rcases resolve_cases packages r'.forget i with
    ⟨hplace, hforgets⟩ | ⟨importer, himporter, hplace, ⟨_, hmemory, _⟩ | ⟨_, hforgets⟩⟩
  · rcases resolve_cases packages r i with ⟨_, hresolve⟩ | ⟨_, _, hplace', _⟩
    · rw [hresolve, hforgets]
      simp [Resolution.seen, hhidden, forget]
    · rw [hplace] at hplace'
      cases hplace'
  · rw [hnone] at hmemory
    cases hmemory
  · rw [hforgets]
    rcases resolve_cases packages r i with
      ⟨hplace', _⟩ | ⟨importer', himporter', _, ⟨entry, hmemory, hresolve⟩ | ⟨_, hresolve⟩⟩
    · rw [hplace] at hplace'
      cases hplace'
    · -- What is remembered is what the look-up finds.
      cases himporter.symm.trans himporter'
      obtain ⟨manifest, hfound, hentry⟩ := h _ _ _ hmemory
      rw [hresolve]
      simp [Resolution.seen, lookUp, hfound, hentry, hhidden, forget]
    · cases himporter.symm.trans himporter'
      rw [hresolve]
      exact seen_lookUp hhidden

/-- Which imports look a package up: those that come to no entry, and those that find one for a
place that nothing was remembered for. -/
theorem lookups_step (packages : Packages) (r : Resolver) (i : Import) :
    (r.step packages true i).resolver.known =
      r.known ∪ placesFound [(i, r.step packages true i)] ∧
    (r.step packages true i).resolver.lookups + r.known.card =
      r.lookups + (r.step packages true i).resolver.known.card +
        missed [(i, r.step packages true i)] := by
  rcases resolve_cases packages r i with
    ⟨hplace, hresolve⟩ | ⟨importer, _, hplace, ⟨entry, hmemory, hresolve⟩ | ⟨hmemory, hresolve⟩⟩
  · simp [step, hresolve, placesFound, missed, hplace, Resolution.hasEntry]
  · have hknown : memoKey i.importee importer ∈ r.known := by
      by_contra hnot
      rw [remembered?_eq_none_iff.2 hnot] at hmemory
      cases hmemory
    simp [step, hresolve, placesFound, missed, hplace, Resolution.hasEntry, hknown]
  · have hnew := remembered?_eq_none_iff.1 hmemory
    rcases lookUp_cases packages r i.importee importer with
      ⟨manifest, entry, _, _, hentry, hresolver⟩ | ⟨hentry, hentries, hlookups⟩
    · have hknown : (r.lookUp packages i.importee importer).resolver.known =
          insert (memoKey i.importee importer) r.known := by
        simp [hresolver, known]
      have hlookups : (r.lookUp packages i.importee importer).resolver.lookups =
          r.lookups + 1 := by rw [hresolver]
      have hcard := Finset.card_insert_of_notMem hnew
      simp only [step, hresolve, if_true, hknown, hlookups, placesFound, missed, hplace, hentry,
        List.filter_cons, List.filter_nil, List.filterMap_cons, List.filterMap_nil,
        List.toFinset_cons, List.toFinset_nil, List.countP_singleton]
      refine ⟨?_, ?_⟩
      · rw [Finset.union_comm]
        rfl
      · simp only [hcard, Option.isSome_some, Bool.not_true, Bool.and_false, Bool.false_eq_true,
          if_false]
        omega
    · have hknown : (r.lookUp packages i.importee importer).resolver.known = r.known := by
        simp [known, hentries]
      simp only [step, hresolve, if_true, hknown, hlookups]
      simp [placesFound, missed, hplace, hentry, Nat.add_right_comm]

/-! ## Sequences of imports -/

theorem seen_resolutions (hpackages : DirectoryBound packages) (h : Truthful packages r)
    (hhidden : r.hidden = r'.hidden) (imports : List Import) :
    (resolutions packages true r imports).map (fun d => d.2.seen) =
      (resolutions packages false r' imports).map (fun d => d.2.seen) := by
  induction imports generalizing r r' with
  | nil => rfl
  | cons i imports ih =>
    have hsame := seen_step h hhidden i
    simp only [resolutions, List.map_cons, hsame]
    rw [ih (truthful_step hpackages h i) (congrArg Prod.snd hsame)]

theorem placesFound_cons (d : Import × Resolution) (done : List (Import × Resolution)) :
    placesFound (d :: done) = placesFound [d] ∪ placesFound done := by
  unfold placesFound
  rw [← List.toFinset_append, ← List.filterMap_append, ← List.filter_append]
  rfl

theorem missed_cons (d : Import × Resolution) (done : List (Import × Resolution)) :
    missed (d :: done) = missed [d] + missed done := by
  unfold missed
  rw [← List.countP_append]
  rfl

theorem lookups_behind (packages : Packages) (r : Resolver) (imports : List Import) :
    (behind packages r imports).known =
      r.known ∪ placesFound (resolutions packages true r imports) ∧
    (behind packages r imports).lookups + r.known.card =
      r.lookups + (behind packages r imports).known.card +
        missed (resolutions packages true r imports) := by
  induction imports generalizing r with
  | nil => simp [behind, resolutions, placesFound, missed]
  | cons i imports ih =>
    obtain ⟨hknown, hlookups⟩ := lookups_step packages r i
    obtain ⟨hknown', hlookups'⟩ := ih (r.step packages true i).resolver
    change (behind packages (r.step packages true i).resolver imports).known = _ ∧ _
    rw [resolutions, placesFound_cons, missed_cons, ← Finset.union_assoc, ← hknown]
    refine ⟨hknown', ?_⟩
    change (behind packages (r.step packages true i).resolver imports).lookups + _ =
      _ + (behind packages (r.step packages true i).resolver imports).known.card + _
    omega

/-- The memory of a resolver is invisible. If the answers to look-ups depend on the package and the
importing directory alone, then every sequence of imports from a new resolver comes to the same
results, errors included, and to the same packages that hide their manifest after each import, as
with a resolver that forgets all entries before each import. The memory spares look-ups and nothing
else: there are as many as places from which an entry was found, each counted once, and imports that
looked for an entry and came to none. -/
theorem memory_is_invisible (packages : Packages) (imports : List Import)
    (hpackages : DirectoryBound packages) :
    let done := resolutions packages true {} imports
    done.map (fun d => d.2.seen) =
      (resolutions packages false {} imports).map (fun d => d.2.seen) ∧
    (behind packages {} imports).lookups = (placesFound done).card + missed done := by
  intro done
  constructor
  · refine seen_resolutions hpackages ?_ rfl imports
    intro importee importer entry hmemory
    cases hmemory
  · obtain ⟨hknown, hlookups⟩ := lookups_behind packages {} imports
    have hnone : known {} = ∅ := rfl
    rw [hnone, Finset.empty_union] at hknown
    rw [hnone, hknown, Finset.card_empty] at hlookups
    simpa using hlookups

end Resolver

end HotComponents.Package

namespace HotComponents.Sample

/-- Packages of a workspace: one with an entry that only its own application sees, one that hides its
manifest and one whose manifest cannot be read. -/
def workspace : Package.Packages := fun name importer =>
  if name = "ui" ∧ Package.importDirectory importer = Package.importDirectory ⟨"/app/A.svelte"⟩ then
    .ok (some ⟨⟨"/app/node_modules/ui"⟩, .object [("svelte", .text "index.js")]⟩)
  else if name = "shut" then .error (.notExported "shut/package.json")
  else if name = "locked" then .error (.access ⟨"locked", "permission denied"⟩)
  else .ok none

end HotComponents.Sample

namespace HotComponents.Package.Resolver

/-- Seven imports, of which six look for an entry: two find it from one directory, spelled in two
ways, and each of the other four comes to none for another reason. So there are five look-ups. -/
theorem memory_is_invisible_workspace :
    let imports : List Import :=
      [⟨"ui", some ⟨"/app/A.svelte"⟩⟩, ⟨"shut", some ⟨"/app/A.svelte"⟩⟩,
        ⟨"./B.svelte", some ⟨"/app/A.svelte"⟩⟩, ⟨"ui", some ⟨"/app//B.svelte"⟩⟩,
        ⟨"locked", some ⟨"/app/A.svelte"⟩⟩, ⟨"ui", some ⟨"/lib/A.svelte"⟩⟩,
        ⟨"shut", some ⟨"/lib/A.svelte"⟩⟩]
    let done := resolutions Sample.workspace true {} imports
    DirectoryBound Sample.workspace ∧
    (done.map (fun d => d.2.seen) =
      (resolutions Sample.workspace false {} imports).map (fun d => d.2.seen) ∧
    (behind Sample.workspace {} imports).lookups = (placesFound done).card + missed done) ∧
    (behind Sample.workspace {} imports).lookups = 5 ∧ missed done = 4 := by
  intro imports done
  have hbound : DirectoryBound Sample.workspace := by
    intro name p q hdirectory
    simp only [Sample.workspace, hdirectory]
  refine ⟨hbound, memory_is_invisible Sample.workspace imports hbound, ?_⟩
  decide +kernel

end HotComponents.Package.Resolver
