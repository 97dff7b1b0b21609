import HotComponents.Journal
import HotComponents.Options.Basic
import HotComponents.Text.Octets
import HotComponents.Toml.Document

/-!
# Written settings

Settings as they are written in a file. An entry that no setting is called by is named and ignored;
a value of the wrong kind refuses the whole file.

* `notes_of_nothing_ignored`: nothing is said where nothing is ignored.
-/

namespace HotComponents

open Toml (Value Entries)

/-- Settings that were read, and the names of the entries that were ignored, in order. -/
structure Written where
  settings : Settings := {}
  ignored : List String := []
deriving Repr

namespace Written

/-! ## Values of one kind -/

/-- The text of a string. -/
def text? : Value → Option String
  | .string text => some text
  | _ => none

/-- The truth value of a boolean. -/
def flag? : Value → Option Bool
  | .boolean b => some b
  | _ => none

/-- The texts of an array of strings. -/
def texts? : Value → Option (List String)
  | .array elements => elements.mapM text?
  | _ => none

/-! ## The compiler's settings -/

/-- What an entry of the compiler's settings is called among all of them. -/
def compilerName (key : String) : String := "compiler." ++ key

/-- The settings with an entry of the compiler's. -/
def addCompiler (w : Written) (entry : String × Value) : Option Written :=
  let compiler := w.settings.compiler
  let put (compiler : CompilerOptions) : Written :=
    { w with settings := { w.settings with compiler } }
  match entry with
  | ("dev", v) => (flag? v).map fun dev => put { compiler with dev }
  | ("css_hash_prefix", v) =>
    (text? v).map fun cssPrefix => put { compiler with cssHashPrefix := some cssPrefix }
  | (key, _) => some { w with ignored := w.ignored ++ [compilerName key] }

/-- The names of the compiler's settings in order, by which an array fills them. -/
def compilerKeys : List String := ["dev", "css_hash_prefix"]

/-- The one key that a date or a time has as a table. -/
def momentKey : String := "$__toml_private_datetime"

/-- The settings with all of the compiler's. -/
def putCompiler (w : Written) : Value → Option Written
  | .table _ entries => entries.foldlM addCompiler w
  | .array elements => (compilerKeys.zip elements).foldlM addCompiler w
  | .moment => w.addCompiler (momentKey, .moment)
  | _ => none

/-! ## All settings -/

/-- The settings with an entry of the document. -/
def add (w : Written) (entry : String × Value) : Option Written :=
  let put (settings : Settings) : Written := { w with settings }
  let s := w.settings
  match entry with
  | ("root", v) => (text? v).map fun root => put { s with root := ⟨root⟩ }
  | ("extensions", v) => (texts? v).map fun extensions => put { s with extensions }
  | ("exclude", v) => (texts? v).map fun exclude => put { s with exclude }
  | ("emit_css", v) => (flag? v).map fun emitCss => put { s with emitCss }
  | ("hot", v) => (flag? v).map fun hot => put { s with hot }
  | ("verbose", v) => (flag? v).map fun verbose => put { s with verbose }
  | ("emit_warnings", v) => (flag? v).map fun emitWarnings => put { s with emitWarnings }
  | ("compiler", v) => w.putCompiler v
  | (key, _) => some { w with ignored := w.ignored ++ [key] }

/-- The settings of a text. -/
def ofText (text : String) : Except OptionsError Written :=
  match (Toml.read? text).bind fun entries => entries.foldlM add {} with
  | some w => .ok w
  | none => .error .malformed

/-- The settings of a file with given octets, if there is such a file. -/
def ofFile (file : FilePath) (octets : Option (List UInt8)) : Except OptionsError Written :=
  match octets.bind Text.decode? with
  | some text => ofText (String.ofList text)
  | none => .error (.unreadable file)

/-- What is said of the entries that were ignored. -/
def notes (w : Written) : Journal :=
  if w.ignored.isEmpty then []
  else [.note "warning" ("ignoring unknown option(s): " ++ ", ".intercalate w.ignored)]

theorem notes_of_nothing_ignored {w : Written} (h : w.ignored = []) : w.notes = [] := by
  simp [notes, h]

end Written

end HotComponents
