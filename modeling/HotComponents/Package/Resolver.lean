import HotComponents.Journal
import HotComponents.Package.Import
import HotComponents.Package.HiddenManifests

/-!
# Package entries

A package can name a component entry in its manifest. An import of such a package resolves to that
entry. Looking a package up is left to a function from outside; entries that were found are
remembered for all importers in one directory.

* `resolve_of_not_candidate`: an import that is no candidate leaves everything as it is.
-/

namespace HotComponents.Package

/-- A value in a manifest, as far as it matters here. -/
inductive ManifestValue where
  | text (s : String)
  | object (fields : List (String × ManifestValue))
  | other
deriving Repr, Inhabited

/-- A package directory and its manifest. -/
structure Manifest where
  dir : FilePath
  value : ManifestValue
deriving Repr

/-- The component entry that a manifest names, seen from the package directory. -/
def Manifest.entry? (m : Manifest) : Option FilePath :=
  match m.value with
  | .object fields =>
    match fields.find? fun field => field.1 = "svelte" with
    | some (_, .text entry) => some (m.dir.join ⟨entry⟩)
    | _ => none
  | _ => none

/-- A manifest that cannot be read. -/
structure AccessFailure where
  package : String
  /-- What the system says of it. -/
  source : String := ""
deriving DecidableEq, Repr

/-- A package by itself is one of whose manifest the system says nothing. -/
instance : Coe String AccessFailure := ⟨fun package => { package }⟩

/-- A failure is spoken of by its package. -/
instance : Coe AccessFailure String := ⟨AccessFailure.package⟩

/-- Why a manifest could not be looked into. -/
inductive LookupError where
  /-- The package does not export its manifest. -/
  | notExported (package : String)
  /-- The manifest cannot be read. -/
  | access (failure : AccessFailure)
deriving DecidableEq, Repr

/-- The wording of an error. -/
def LookupError.message : LookupError → String
  | notExported package => "package `" ++ package ++ "` does not export `package.json`"
  | access failure => "cannot access manifest of `" ++ failure.package ++ "`"

/-- Where packages are looked up: by name, as seen from an importing file. -/
abbrev Packages := String → FilePath → Except LookupError (Option Manifest)

/-- What is remembered of earlier look-ups. -/
structure Resolver where
  /-- Entries by import and importing directory. -/
  entries : List ((String × List FilePath.Component) × FilePath) := []
  /-- Packages that hide their manifest. -/
  hidden : HiddenManifests := {}
  /-- The number of look-ups so far. -/
  lookups : Nat := 0

namespace Resolver

/-- What an entry is remembered under. -/
def memoKey (importee : String) (importer : FilePath) : String × List FilePath.Component :=
  (importee, (importer.parent?.getD importer).components)

/-- The remembered entry of an import. -/
def remembered? (r : Resolver) (importee : String) (importer : FilePath) : Option FilePath :=
  (r.entries.find? fun entry => entry.1 = memoKey importee importer).map Prod.snd

/-- What a resolution ends in: the memory behind it, an entry or nothing or the failure to read a
manifest, handed on as it is, and what is said. -/
structure Resolution where
  resolver : Resolver
  result : Except AccessFailure (Option FilePath)
  notes : Journal := []

/-- A resolution that looks the package up. -/
def lookUp (r : Resolver) (packages : Packages) (importee : String) (importer : FilePath) :
    Resolution :=
  let r := { r with lookups := r.lookups + 1 }
  match packages importee importer with
  | .ok (some manifest) =>
    match manifest.entry? with
    | some entry =>
      { resolver := { r with entries := (memoKey importee importer, entry) :: r.entries }
        result := .ok (some entry)
        notes := [.detail "resolve" (importee ++ " -> " ++ entry.text)] }
    | none => { resolver := r, result := .ok none }
  | .ok none => { resolver := r, result := .ok none }
  | .error (.notExported package) =>
    { resolver := { r with hidden := r.hidden.add package }, result := .ok none }
  | .error (.access failure) => { resolver := r, result := .error failure }

/-- The resolution of an import; without an importer, and for an import that is no candidate, there
is none. -/
def resolve (r : Resolver) (packages : Packages) (importee : String)
    (importer? : Option FilePath) : Resolution :=
  match importer? with
  | none => { resolver := r, result := .ok none }
  | some importer =>
    if !isCandidate importee then { resolver := r, result := .ok none }
    else
      match r.remembered? importee importer with
      | some entry => { resolver := r, result := .ok (some entry) }
      | none => r.lookUp packages importee importer

/-- What is said at the end of a build: the report, if there is one. -/
def buildEndNotes (r : Resolver) : Journal :=
  r.hidden.report.toList.map (.note "warn")

theorem resolve_of_not_candidate {r : Resolver} {packages : Packages} {importee : String}
    {importer? : Option FilePath} (h : isCandidate importee = false) :
    (r.resolve packages importee importer?).resolver = r ∧
      (r.resolve packages importee importer?).result = .ok none := by
  unfold resolve
  split <;> simp [h]

end Resolver

/-- The wording of the one error that a resolution can end in. -/
def manifestAccessMessage (failure : AccessFailure) : String := (LookupError.access failure).message

end HotComponents.Package
