import HotComponents.FilePath
import HotComponents.Pattern.Basic

/-!
# Options

Settings are what a user writes, every field with its default. They are checked once and become
options, which the whole session reads. The checks run in a fixed order and the first failure
counts: extensions, patterns, root.

* `Options.owns_iff`: a file is owned when it ends in an extension and no pattern occurs in it.
-/

namespace HotComponents

/-- What the compiler is told besides the source. -/
structure CompilerOptions where
  /-- Compile for development. -/
  dev : Bool := true
  /-- What generated class names begin with. -/
  cssHashPrefix : Option String := none
deriving DecidableEq, Repr

/-- Options as a user writes them. -/
structure Settings where
  /-- The project's root; the working directory if empty. -/
  root : FilePath := ⟨""⟩
  /-- The extensions of component files, with their dots. -/
  extensions : List String := [".svelte"]
  /-- Patterns of component files that are left alone. -/
  exclude : List String := []
  /-- Serve stylesheets as modules of their own. -/
  emitCss : Bool := true
  /-- React to file changes. -/
  hot : Bool := true
  /-- Say more. -/
  verbose : Bool := false
  /-- Say the compiler's warnings. -/
  emitWarnings : Bool := true
  /-- What the compiler is told. -/
  compiler : CompilerOptions := {}
deriving DecidableEq, Repr

/-- Options that were checked. -/
structure Options where
  /-- The project's root. -/
  root : FilePath
  /-- The extensions of component files. -/
  extensions : List String := [".svelte"]
  /-- Patterns of component files that are left alone. -/
  exclude : List Pattern := []
  /-- Serve stylesheets as modules of their own. -/
  emitCss : Bool := true
  /-- React to file changes. -/
  hot : Bool := true
  /-- Say more. -/
  verbose : Bool := false
  /-- Say the compiler's warnings. -/
  emitWarnings : Bool := true
  /-- What the compiler is told. -/
  compiler : CompilerOptions := {}
deriving Repr

/-- Why there are no options. -/
inductive OptionsError where
  /-- The file with the settings cannot be read. -/
  | unreadable (file : FilePath)
  /-- The text of the settings is not well formed. -/
  | malformed
  /-- There is no extension. -/
  | noExtension
  /-- An extension does not name one. -/
  | badExtension (extension : String)
  /-- An excluding pattern is refused. -/
  | badPattern (source : String) (refusal : Pattern.Refusal)
  /-- The root is no absolute path. -/
  | relativeRoot (root : FilePath)
deriving DecidableEq, Repr

namespace OptionsError

/-- The field that a check is about. -/
def field? : OptionsError → Option String
  | noExtension => some "extensions"
  | badExtension _ => some "extensions"
  | badPattern _ _ => some "exclude"
  | relativeRoot _ => some "root"
  | unreadable _ => none
  | malformed => none

/-- What an error says, without its field. -/
def detail : OptionsError → String
  | unreadable file => "IO error when reading `" ++ file.text ++ "`"
  | malformed => "Config file parsing error"
  | noExtension => "at least one extension is required"
  | badExtension e => "`" ++ e ++ "` must start with `.` and name an extension"
  | badPattern source refusal => "`" ++ source ++ "`: " ++ refusal.message source
  | relativeRoot root => "`" ++ root.text ++ "` must be an absolute path"

/-- The wording of an error. -/
def message (e : OptionsError) : String :=
  match e.field? with
  | some field => "Config validation error: [" ++ field ++ "] " ++ e.detail
  | none => e.detail

end OptionsError

/-- The text names an extension: a dot and at least one character more, none of them a slash, a
backslash or a question mark. -/
def isExtension (text : String) : Bool :=
  match text.toList with
  | '.' :: rest => !rest.isEmpty && rest.all fun c => c != '/' && c != '\\' && c != '?'
  | _ => false

namespace Settings

/-- The options of settings in a working directory, or the first error in the settings. -/
def resolve (s : Settings) (workingDirectory : FilePath) : Except OptionsError Options := do
  if s.extensions.isEmpty then throw .noExtension
  match s.extensions.find? fun e => !isExtension e with
  | some bad => throw (.badExtension bad)
  | none => pure ()
  let exclude ← s.exclude.mapM fun source =>
    match Pattern.ofString source with
    | .ok p => Except.ok p
    | .error refusal => .error (.badPattern source refusal)
  let root := if s.root.text.isEmpty then workingDirectory else s.root
  if !root.isAbsolute then throw (.relativeRoot root)
  return {
    root, exclude,
    extensions := s.extensions, emitCss := s.emitCss, hot := s.hot, verbose := s.verbose,
    emitWarnings := s.emitWarnings, compiler := s.compiler }

end Settings

namespace Options

/-- The options of a session without settings. -/
def atRoot (root : FilePath) : Options := { root }

/-- The text ends in an extension of component files. -/
def hasExtension (o : Options) (file : String) : Bool :=
  o.extensions.any fun e => e.toList.isSuffixOf file.toList

/-- The file is a component that this session compiles. -/
def owns (o : Options) (file : String) : Bool :=
  o.hasExtension file && !o.exclude.any fun p => p.isMatch file

theorem owns_iff {o : Options} {file : String} :
    o.owns file ↔ o.hasExtension file ∧ ∀ p ∈ o.exclude, p.isMatch file = false := by
  simp [owns]

end Options

end HotComponents
