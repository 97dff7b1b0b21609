import HotComponents.Proofs.Package.Memory
import HotComponents.Proofs.Text.Utf8Order
import HotComponents.Session.Run
import Mathlib.Data.List.Sort

/-!
# The report on packages that hide their manifest

Whatever imports are resolved, in whatever order and however often, and whatever packages answer, the
report at the end of a build follows from the look-ups that came upon a hidden manifest: it names
each such package once, in ascending order, and there is no report if there was no such look-up.

* `hidden_perform`: what one call makes of the packages that are known to hide their manifest;
* `hidden_run`: what a sequence of calls makes of them, by the answers to its look-ups;
* `mem_foldl_hear`, `ascending_foldl_hear`: which names are gathered, and in which order;
* `report_names_each_hidden_package_once`: what the report says.
-/

namespace HotComponents

namespace Text

theorem stripSuffix?_eq_some_iff {word cs rest : List Char} :
    stripSuffix? word cs = some rest ↔ cs = rest ++ word := by
  rw [stripSuffix?, Option.map_eq_some_iff]
  constructor
  · rintro ⟨more, hmore, rfl⟩
    rw [stripPrefix?_eq_some_iff] at hmore
    rw [← List.reverse_reverse cs, hmore, List.reverse_append, List.reverse_reverse]
  · rintro rfl
    refine ⟨rest.reverse, ?_, List.reverse_reverse rest⟩
    rw [stripPrefix?_eq_some_iff, List.reverse_append]

end Text

namespace Package

/-! ## Names -/

namespace HiddenManifests

variable {hidden : HiddenManifests} {package name n : String} {names : List String}

/-- A package is reported under a name: the package's own, or what stands in front of the manifest's
file name when the package ends in that. -/
def NamedAs (package name : String) : Prop :=
  package = name ++ "/package.json" ∨ package = name ∧ ∀ other, package ≠ other ++ "/package.json"

theorem bareName_eq_iff : bareName package = name ↔ NamedAs package name := by
  have hends (other : String) : package = other ++ "/package.json" ↔
      Text.stripSuffix? "/package.json".toList package.toList = some other.toList := by
    rw [Text.stripSuffix?_eq_some_iff, ← String.toList_append, String.toList_inj]
  simp only [NamedAs, ne_eq, hends, bareName]
  cases Text.stripSuffix? "/package.json".toList package.toList with
  | none => simp
  | some bare =>
    constructor
    · rintro rfl
      exact .inl (congrArg some String.toList_ofList.symm)
    · rintro (h | ⟨-, hnone⟩)
      · rw [Option.some.inj h]
        exact String.ofList_toList
      · exact absurd (congrArg some String.toList_ofList.symm) (hnone (String.ofList bare))

theorem ascending_insertName (h : names.Pairwise (· < ·)) :
    (insertName name names).Pairwise (· < ·) := by
  induction names with
  | nil => exact List.pairwise_singleton _ _
  | cons other rest ih =>
    obtain ⟨hfirst, hrest⟩ := List.pairwise_cons.1 h
    rw [insertName]
    split
    · exact h
    · next hne =>
      split
      · next hlt =>
        refine List.pairwise_cons.2 ⟨?_, h⟩
        exact List.forall_mem_cons.2 ⟨hlt, fun n hn => String.lt_trans hlt (hfirst n hn)⟩
      · next hnot =>
        refine List.pairwise_cons.2 ⟨fun n hn => ?_, ih hrest⟩
        rcases mem_insertName.1 hn with rfl | hn
        · exact Std.lt_of_le_of_ne hnot (Ne.symm hne)
        · exact hfirst n hn

/-- What is gathered when a look-up has been answered. -/
def hear (hidden : HiddenManifests) : Except LookupError (Option Manifest) → HiddenManifests
  | .error (.notExported package) => hidden.add package
  | _ => hidden

theorem mem_hear {answer : Except LookupError (Option Manifest)} :
    n ∈ (hidden.hear answer).names ↔ n ∈ hidden.names ∨
      ∃ package, answer = .error (.notExported package) ∧ NamedAs package n := by
  match answer with
  | .ok found => simp [hear]
  | .error (.access failure) => simp [hear]
  | .error (.notExported package) =>
    simp only [hear, mem_add, eq_comm (a := n), bareName_eq_iff, Except.error.injEq,
      LookupError.notExported.injEq, exists_eq_left', or_comm]

variable {answers : List (Except LookupError (Option Manifest))}

/-- The names that are gathered are those of the packages of which a look-up said that they hide
their manifest. -/
theorem mem_foldl_hear :
    n ∈ (answers.foldl hear hidden).names ↔ n ∈ hidden.names ∨
      ∃ package, .error (.notExported package) ∈ answers ∧ NamedAs package n := by
  induction answers generalizing hidden with
  | nil => simp
  | cons answer answers ih =>
    simp only [List.foldl_cons, ih, mem_hear, List.mem_cons, eq_comm (a := answer), or_and_right,
      exists_or, or_assoc]

theorem ascending_foldl_hear (h : hidden.names.Pairwise (· < ·)) :
    (answers.foldl hear hidden).names.Pairwise (· < ·) := by
  induction answers generalizing hidden with
  | nil => exact h
  | cons answer answers ih =>
    refine ih ?_
    match answer with
    | .ok found => exact h
    | .error (.access failure) => exact h
    | .error (.notExported package) => exact ascending_insertName h

/-- Two gatherings of the same names are reported alike. -/
theorem eq_of_mem_iff {other : HiddenManifests} (h : hidden.names.Pairwise (· < ·))
    (hother : other.names.Pairwise (· < ·)) (hsame : ∀ n, n ∈ hidden.names ↔ n ∈ other.names) :
    hidden = other := by
  have hnames : hidden.names = other.names := h.eq_of_mem_iff hother hsame
  cases hidden
  cases other
  exact congrArg HiddenManifests.mk hnames

end HiddenManifests

/-! ## Calls -/

namespace Resolver

variable {packages : Packages} {r : Resolver} {importee : String} {importer : FilePath}

/-- What is asked of a resolver. -/
inductive Call where
  /-- An import is resolved, with packages that answer as they do then. -/
  | resolve (packages : Packages) (i : Import)
  /-- A build pass ends. -/
  | buildEnd

/-- What a call comes to: the resolver behind it, and what is said. -/
def perform (r : Resolver) : Call → Resolver × Journal
  | .resolve packages i =>
    let d := r.resolve packages i.importee i.importer?
    (d.resolver, d.notes)
  | .buildEnd => (r, r.buildEndNotes)

/-- The answer to the look-up that a call leads to, if it leads to one. -/
def answer? (r : Resolver) : Call → Option (Except LookupError (Option Manifest))
  | .resolve packages i =>
    if (r.resolve packages i.importee i.importer?).resolver.lookups = r.lookups then none
    else i.importer?.map (packages i.importee)
  | .buildEnd => none

/-- The resolver behind a sequence of calls. -/
def run (r : Resolver) (calls : List Call) : Resolver :=
  calls.foldl (fun r call => (r.perform call).1) r

/-- The answers to the look-ups of a sequence of calls, in order. -/
def answers (r : Resolver) : List Call → List (Except LookupError (Option Manifest))
  | [] => []
  | call :: calls => (r.answer? call).toList ++ (r.perform call).1.answers calls

theorem lookups_lookUp :
    (r.lookUp packages importee importer).resolver.lookups = r.lookups + 1 := by
  unfold lookUp
  split
  · next manifest _ => cases manifest.entry? <;> rfl
  · rfl
  · rfl
  · rfl

theorem hidden_lookUp :
    (r.lookUp packages importee importer).resolver.hidden =
      r.hidden.hear (packages importee importer) := by
  unfold lookUp
  split
  · next manifest hfound =>
    rw [hfound]
    cases manifest.entry? <;> rfl
  · next hfound => rw [hfound]; rfl
  · next hfound => rw [hfound]; rfl
  · next hfound => rw [hfound]; rfl

/-- What one call makes of the packages that are known to hide their manifest: what the look-up says,
if there is one. -/
theorem hidden_perform (r : Resolver) (call : Call) :
    (r.perform call).1.hidden = (r.answer? call).toList.foldl HiddenManifests.hear r.hidden := by
  cases call with
  | buildEnd => rfl
  | resolve packages i =>
    rcases resolve_cases packages r i with
      ⟨-, hresolve⟩ | ⟨importer, himporter, -, ⟨entry, -, hresolve⟩ | ⟨-, hresolve⟩⟩
    · simp [perform, answer?, hresolve]
    · simp [perform, answer?, hresolve]
    · simp only [perform, answer?, hresolve, lookups_lookUp, hidden_lookUp]
      simp [himporter]

/-- What a sequence of calls makes of them: what its look-ups say. -/
theorem hidden_run (r : Resolver) (calls : List Call) :
    (r.run calls).hidden = (r.answers calls).foldl HiddenManifests.hear r.hidden := by
  induction calls generalizing r with
  | nil => rfl
  | cons call calls ih =>
    rw [answers, List.foldl_append, ← hidden_perform]
    exact ih (r.perform call).1

/-- In a sequence of calls to a new resolver a look-up came upon a hidden manifest, of a package that
is reported under a name. -/
def Reports (calls : List Call) (name : String) : Prop :=
  ∃ package, .error (.notExported package) ∈ answers {} calls ∧
    HiddenManifests.NamedAs package name

theorem mem_names_run (calls : List Call) (name : String) :
    name ∈ (run {} calls).hidden.names ↔ Reports calls name := by
  rw [hidden_run, HiddenManifests.mem_foldl_hear]
  exact or_iff_right List.not_mem_nil

theorem ascending_names_run (calls : List Call) :
    (run {} calls).hidden.names.Pairwise (· < ·) := by
  rw [hidden_run]
  exact HiddenManifests.ascending_foldl_hear .nil

theorem exists_namedAs (package : String) : ∃ name, HiddenManifests.NamedAs package name :=
  ⟨_, HiddenManifests.bareName_eq_iff.1 rfl⟩

/-- There is nothing to report exactly if no look-up came upon a hidden manifest. -/
theorem report_run_eq_none_iff (calls : List Call) :
    (run {} calls).hidden.report = none ↔
      ∀ package, .error (.notExported package) ∉ answers {} calls := by
  rw [HiddenManifests.report_eq_none_iff, List.eq_nil_iff_forall_not_mem]
  simp only [mem_names_run, Reports, not_exists, not_and]
  constructor
  · intro hnone package hhidden
    obtain ⟨name, hname⟩ := exists_namedAs package
    exact hnone name package hhidden hname
  · intro hnone name package hhidden
    exact absurd hhidden (hnone package)

/-- The report names each package that hides its manifest once. Take a new resolver and any sequence
of imports and ends of build passes, with packages that answer each look-up in any way. A build pass
that ends now returns no report, and says nothing, exactly if no look-up so far came upon a hidden
manifest. Otherwise it returns the fixed header and below it one line for each name under which such
a package is reported, in strictly ascending order of their octets, and says exactly this text as a
warning. Nothing else comes of it. Any other sequence of calls with the same names to report,
whatever else it asks for and in whatever order, leads to the same report. -/
theorem report_names_each_hidden_package_once (calls : List Call) :
    let r := run {} calls
    (∀ s : Session, s.resolver = r →
      s.buildEnd = ({ s with journal := s.journal ++ r.buildEndNotes }, r.hidden.report)) ∧
    (r.hidden.report = none ↔ ∀ package, .error (.notExported package) ∉ answers {} calls) ∧
    (r.hidden.report = none → r.buildEndNotes = []) ∧
    (∀ text, r.hidden.report = some text →
      r.buildEndNotes = [.note "warn" text] ∧
      ∃ names : List String,
        text = HiddenManifests.reportHeader ++ String.join (names.map ("\n- " ++ ·)) ∧
        (∀ name, name ∈ names ↔ Reports calls name) ∧
        names.Pairwise fun a b => Text.encode a.toList < Text.encode b.toList) ∧
    ∀ others : List Call, (∀ name, Reports others name ↔ Reports calls name) →
      (run {} others).hidden.report = r.hidden.report ∧
        (run {} others).buildEndNotes = r.buildEndNotes := by
  intro r
  refine ⟨fun s hs => ?_, report_run_eq_none_iff calls, fun hnone => ?_, fun text hreport => ?_,
    fun others hsame => ?_⟩
  · rw [← hs]
    rfl
  · rw [buildEndNotes, hnone]
    rfl
  · refine ⟨by rw [buildEndNotes, hreport]; rfl, r.hidden.names, ?_, mem_names_run calls, ?_⟩
    · rw [HiddenManifests.report] at hreport
      split at hreport
      · cases hreport
      · exact (Option.some.inj hreport).symm
    · exact (ascending_names_run calls).imp fun h => Text.encode_lt (String.lt_iff.1 h)
  · have hhidden : (run {} others).hidden = r.hidden := by
      refine HiddenManifests.eq_of_mem_iff (ascending_names_run others) (ascending_names_run calls)
        fun name => ?_
      rw [mem_names_run, mem_names_run, hsame]
    rw [buildEndNotes, buildEndNotes, hhidden]
    exact ⟨rfl, rfl⟩

end Resolver

end Package

namespace Sample

/-- Packages that all hide their manifest. -/
def sealed : Package.Packages := fun name _ => .error (.notExported name)

end Sample

namespace Package.Resolver

/-- Two packages hide their manifest. It is asked for them in two orders, once with a report in
between and once with a package that is found, one that cannot be read and one that is asked for
twice, named in two ways. The reports are the same. -/
theorem report_names_each_hidden_package_once_reordered :
    let component : Option FilePath := some ⟨"/app/A.svelte"⟩
    let calls : List Call := [.resolve Sample.workspace ⟨"shut", component⟩, .buildEnd,
      .resolve Sample.sealed ⟨"@ui/kit", component⟩]
    let others : List Call := [.resolve Sample.sealed ⟨"@ui/kit", component⟩,
      .resolve Sample.workspace ⟨"ui", component⟩, .resolve Sample.sealed ⟨"shut", component⟩,
      .resolve Sample.workspace ⟨"locked", component⟩, .buildEnd,
      .resolve Sample.workspace ⟨"shut", component⟩]
    (∀ name, Reports others name ↔ Reports calls name) ∧
    (run {} others).hidden.report = (run {} calls).hidden.report ∧
    (run {} calls).hidden.report =
      some (HiddenManifests.reportHeader ++ "\n- @ui/kit" ++ "\n- shut") := by
  intro component calls others
  have hnames : (run {} others).hidden.names = (run {} calls).hidden.names := by decide +kernel
  have hsame (name : String) : Reports others name ↔ Reports calls name := by
    rw [← mem_names_run, ← mem_names_run, hnames]
  obtain ⟨-, -, -, -, hothers⟩ := report_names_each_hidden_package_once calls
  exact ⟨hsame, (hothers others hsame).1, by decide +kernel⟩

end Package.Resolver

end HotComponents
