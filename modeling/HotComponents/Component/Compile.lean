import HotComponents.Component.Record
import HotComponents.Journal
import HotComponents.Options.Basic
import HotComponents.Text.Blank

/-!
# From compiler output to records

The compiler itself is outside. What it is given follows from the options, and what it gives back is
put in order before it is kept: dependencies become absolute, ascending and unique, and a stylesheet
is kept only if it is to be served by itself and is not blank.

* `mem_normalizeDependencies`: the dependencies that are kept are the listed ones, seen from the
  component's directory, that are not the component itself.
-/

namespace HotComponents

/-- How a compiler puts out styles. -/
inductive CssMode where
  /-- As a stylesheet of its own. -/
  | external
  /-- Within the generated code. -/
  | injected
deriving DecidableEq, Repr

/-- What a compiler is given. -/
structure CompileInput where
  file : FilePath
  code : String
  target : Target
  dev : Bool
  css : CssMode
  cssHashPrefix : Option String
deriving DecidableEq, Repr

/-- What a compiler gives back. -/
structure CompileOutput where
  js : Code
  css : Option Code := none
  warnings : List Warning := []
  dependencies : List FilePath := []
deriving DecidableEq, Repr

/-- How a compile ends. -/
abbrev CompileResult := Except Failure CompileOutput

/-! ## Dependencies -/

/-- What is kept behind a path: of neighbours that are the same path the first one. -/
def dedupAfter (p : FilePath) : List FilePath → List FilePath
  | [] => []
  | q :: rest => if p.same q then dedupAfter p rest else q :: dedupAfter q rest

/-- Neighbours that are the same path, the first of them kept. -/
def dedupNeighbours : List FilePath → List FilePath
  | [] => []
  | p :: rest => p :: dedupAfter p rest

/-- Dependencies of a file seen from its directory, without the file itself, in ascending order,
each once. -/
def normalizeDependencies (file : FilePath) (dependencies : List FilePath) : List FilePath :=
  let dir := file.parent?.getD ⟨"/"⟩
  let others := (dependencies.map dir.join).filter fun d => !d.same file
  dedupNeighbours (others.mergeSort fun p q => !q.before p)

/-! ## Compiling under options -/

namespace Options

/-- What a compiler is given for a source text. -/
def compileInput (o : Options) (file : FilePath) (code : String) (target : Target) :
    CompileInput where
  file
  code
  target
  dev := o.compiler.dev
  css := if o.emitCss then .external else .injected
  cssHashPrefix := o.compiler.cssHashPrefix

/-- The stylesheet of an output that is kept. -/
def keptCss (o : Options) (css : Option Code) : Option Code :=
  if o.emitCss then css.filter fun c => !(Text.trim c.text.toList).isEmpty else none

/-- The record of an output. -/
def toRecord (o : Options) (input : CompileInput) (output : CompileOutput) : Record where
  file := input.file
  target := input.target
  digest := .of input.code input.target
  js := output.js
  css := o.keptCss output.css
  dependencies := normalizeDependencies input.file output.dependencies
  warnings := output.warnings

/-- The record or the error that a compile ends in. -/
def judge (o : Options) (input : CompileInput) (result : CompileResult) :
    Except CompileError Record :=
  match result with
  | .ok output => .ok (o.toRecord input output)
  | .error failure => .error ⟨input.file, failure⟩

/-- What is said when a compile begins. -/
def startNotes (input : CompileInput) : Journal :=
  [.detail "compile" (input.file.text ++ " (ssr: " ++ input.target.text ++ ")")]

/-- What is said when a compile has ended: its warnings. -/
def warningNotes (o : Options) (input : CompileInput) (result : CompileResult) : Journal :=
  match result with
  | .ok output =>
    if o.emitWarnings then
      output.warnings.map fun w => .note "warn" (input.file.text ++ ": " ++ w.message)
    else []
  | .error _ => []

end Options

/-! ## What is kept -/

theorem mem_of_mem_dedupAfter {p q : FilePath} {ps : List FilePath} (h : q ∈ dedupAfter p ps) :
    q ∈ ps := by
  induction ps generalizing p with
  | nil => exact h
  | cons first rest ih =>
    rw [dedupAfter] at h
    split at h
    · exact List.mem_cons_of_mem _ (ih h)
    · rcases List.mem_cons.1 h with rfl | h
      · exact List.mem_cons_self
      · exact List.mem_cons_of_mem _ (ih h)

theorem mem_of_mem_dedupNeighbours {ps : List FilePath} {p : FilePath}
    (h : p ∈ dedupNeighbours ps) : p ∈ ps := by
  cases ps with
  | nil => exact h
  | cons first rest => exact List.mem_cons.2 ((List.mem_cons.1 h).imp_right mem_of_mem_dedupAfter)

/-- A path behind another one is kept, or it is the same as one that is. -/
theorem exists_same_mem_dedupAfter {p q : FilePath} {ps : List FilePath} (h : q ∈ ps) :
    ∃ r ∈ p :: dedupAfter p ps, r.same q := by
  induction ps generalizing p with
  | nil => cases h
  | cons first rest ih =>
    rw [dedupAfter]
    split
    · next hsame =>
      rcases List.mem_cons.1 h with rfl | h
      · exact ⟨p, List.mem_cons_self, hsame⟩
      · exact ih h
    · rcases List.mem_cons.1 h with rfl | h
      · exact ⟨q, by simp, FilePath.same_iff.2 rfl⟩
      · obtain ⟨r, hr, hrq⟩ := ih (p := first) h
        exact ⟨r, List.mem_cons_of_mem _ hr, hrq⟩

theorem exists_same_mem_dedupNeighbours {ps : List FilePath} {p : FilePath} (h : p ∈ ps) :
    ∃ q ∈ dedupNeighbours ps, q.same p := by
  cases ps with
  | nil => cases h
  | cons first rest =>
    rcases List.mem_cons.1 h with rfl | h
    · exact ⟨p, List.mem_cons_self, FilePath.same_iff.2 rfl⟩
    · exact exists_same_mem_dedupAfter h

/-- A path is kept, up to sameness, exactly when some listed dependency is that path seen from the
component's directory and is not the component itself. -/
theorem mem_normalizeDependencies {file p : FilePath} {dependencies : List FilePath} :
    (∃ q ∈ normalizeDependencies file dependencies, q.same p) ↔
      ∃ d ∈ dependencies, ((file.parent?.getD ⟨"/"⟩).join d).same p ∧ p.same file = false := by
  simp only [normalizeDependencies]
  constructor
  · -- The file itself is left out by sameness, so what is the same as a kept path is not the file.
    rintro ⟨q, hq, hsame⟩
    have := mem_of_mem_dedupNeighbours hq
    simp only [List.mem_mergeSort, List.mem_filter, List.mem_map] at this
    obtain ⟨⟨d, hd, rfl⟩, hne⟩ := this
    refine ⟨d, hd, hsame, ?_⟩
    have := FilePath.same_iff.1 hsame
    simpa [FilePath.same, this] using hne
  · rintro ⟨d, hd, hsame, hne⟩
    have hmem : (file.parent?.getD ⟨"/"⟩).join d ∈
        ((dependencies.map (file.parent?.getD ⟨"/"⟩).join).filter fun d =>
          !d.same file).mergeSort fun p q => !q.before p := by
      simp only [List.mem_mergeSort, List.mem_filter, List.mem_map]
      have := FilePath.same_iff.1 hsame
      exact ⟨⟨d, hd, rfl⟩, by simpa [FilePath.same, this] using hne⟩
    obtain ⟨q, hq, hqd⟩ := exists_same_mem_dedupNeighbours hmem
    exact ⟨q, hq, FilePath.same_iff.2 ((FilePath.same_iff.1 hqd).trans (FilePath.same_iff.1 hsame))⟩

end HotComponents
