import HotComponents.Text.Split

/-!
# Packages that hide their manifest

The packages whose manifest could not be looked into are gathered and reported together at the end
of a build, each once and in ascending order.

* `mem_add`: adding a package adds its bare name and nothing else;
* `report_eq_none_iff`: there is a report exactly when some package was added.
-/

namespace HotComponents.Package

/-- The names of packages that hide their manifest, ascending. -/
structure HiddenManifests where
  names : List String := []
deriving DecidableEq, Repr

namespace HiddenManifests

/-- A package's name without the manifest's file name behind it. -/
def bareName (package : String) : String :=
  match Text.stripSuffix? "/package.json".toList package.toList with
  | some name => String.ofList name
  | none => package

/-- An ascending list with one more name in it, unless it is there already. -/
def insertName (name : String) : List String → List String
  | [] => [name]
  | other :: rest =>
    if name = other then other :: rest
    else if name < other then name :: other :: rest
    else other :: insertName name rest

/-- One more package. -/
def add (hidden : HiddenManifests) (package : String) : HiddenManifests :=
  ⟨insertName (bareName package) hidden.names⟩

/-- What stands above the names in a report. -/
def reportHeader : String :=
  "The following packages did not export their `package.json` file so we could not check the " ++
    "\"svelte\" field. If you had difficulties importing svelte components from a package, " ++
    "please ask its author to export `package.json`."

/-- The report, if there is anything to report. -/
def report (hidden : HiddenManifests) : Option String :=
  if hidden.names.isEmpty then none
  else some (reportHeader ++ String.join (hidden.names.map ("\n- " ++ ·)))

theorem mem_insertName {name n : String} {names : List String} :
    n ∈ insertName name names ↔ n = name ∨ n ∈ names := by
  induction names with
  | nil => simp [insertName]
  | cons other rest ih =>
    unfold insertName
    split
    · next h => subst h; simp
    · split
      · simp
      · simp only [List.mem_cons, ih]
        constructor
        · rintro (h | h | h) <;> simp [h]
        · rintro (h | h | h) <;> simp [h]

theorem mem_add {hidden : HiddenManifests} {package n : String} :
    n ∈ (hidden.add package).names ↔ n = bareName package ∨ n ∈ hidden.names := mem_insertName

theorem report_eq_none_iff {hidden : HiddenManifests} :
    hidden.report = none ↔ hidden.names = [] := by
  unfold report
  split <;> simp_all

end HiddenManifests

end HotComponents.Package
