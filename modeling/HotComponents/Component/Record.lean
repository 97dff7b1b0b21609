import HotComponents.Digest.Source

/-!
# Compile records

What a compiler is given and gives back, and the record that is kept of a successful compile: code
for one component and one target, known by the digest of the source it came from.

* `Record.key_target`: a record is filed under its own file and target.
-/

namespace HotComponents

/-- Generated code and its source map. -/
structure Code where
  text : String
  map : Option String := none
deriving DecidableEq, Repr, Inhabited

/-- A place in a source text: a line from 1 and a column from 0. -/
structure Location where
  line : Nat
  column : Nat
deriving DecidableEq, Repr

/-- The text of a location. -/
def Location.text (l : Location) : String := toString l.line ++ ":" ++ toString l.column

/-- What a compiler remarks without giving up. -/
structure Warning where
  code : Option String := none
  message : String
  location : Option Location := none
deriving DecidableEq, Repr

/-- Why a compiler gives up. -/
structure Failure where
  code : Option String := none
  message : String
  location : Option Location := none
deriving DecidableEq, Repr

/-- A failure in a given file. -/
structure CompileError where
  file : FilePath
  failure : Failure
deriving DecidableEq, Repr

/-- The wording of an error: the file, the place if it is known, the code in brackets if there is
one, and the compiler's own words. -/
def CompileError.message (e : CompileError) : String :=
  e.file.text ++ e.failure.location.elim "" (":" ++ ·.text) ++ ": " ++
    e.failure.code.elim "" (fun code => "[" ++ code ++ "] ") ++ e.failure.message

/-- What is kept of a successful compile. A record is never changed, only replaced. -/
structure Record where
  /-- The component's source file. -/
  file : FilePath
  /-- The target it was compiled for. -/
  target : Target
  /-- The digest of the source text and the target. -/
  digest : SourceDigest
  /-- The component's own module. -/
  js : Code
  /-- The stylesheet, if there is one to serve. -/
  css : Option Code
  /-- Other files that the output depends on. -/
  dependencies : List FilePath
  /-- What the compiler remarked. -/
  warnings : List Warning
deriving DecidableEq, Repr

namespace Record

/-- There is a stylesheet to serve. -/
def hasCss (r : Record) : Bool := r.css.isSome

/-- What the record is filed under. -/
def key (r : Record) : Key := ⟨r.file, r.target⟩

@[simp] theorem key_target (r : Record) : r.key.target = r.target := rfl

end Record

/-- Why there is no new record: the compiler gave up, or the source file cannot be read. -/
inductive BuildError where
  | compile (e : CompileError)
  | unreadable (file : FilePath)
deriving DecidableEq, Repr

/-- The wording of an error. -/
def BuildError.message : BuildError → String
  | compile e => e.message
  | unreadable file => "failed to read `" ++ file.text ++ "`"

end HotComponents
