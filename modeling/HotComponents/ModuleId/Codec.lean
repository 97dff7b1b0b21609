import HotComponents.Journal
import HotComponents.ModuleId.Request
import HotComponents.Options.Basic

/-!
# Identifiers and requests

Reading an identifier gives a request or the reason why the identifier is none of ours; writing a
request gives an identifier. A file whose path holds a character that has a meaning in identifiers
is written behind `/@fs/` with that character escaped.

* `serialize_eq`: an identifier is the written file, and the query behind a `?` if it has flags;
* `parse_eq_some_iff`: a request is read exactly when nothing speaks against it.
-/

namespace HotComponents.ModuleId

/-- The text before the first `?` and the text after it. -/
def splitId (id : String) : String × Option String :=
  match Text.splitFirst? '?' id.toList with
  | some (file, query) => (String.ofList file, some (String.ofList query))
  | none => (id, none)

/-- What files outside the root begin with in identifiers. -/
def outsidePrefix : List Char := "/@fs/".toList

/-! ## Writing -/

/-- The octet may not stand in the file of an identifier: controls, `?` and `%`. -/
def mustEscape (b : UInt8) : Bool :=
  b.toNat < 0x20 || b.toNat == 0x7F || b.toNat == 0x3F || b.toNat == 0x25

/-- A file as identifiers write it. -/
def writeFile (file : FilePath) : String :=
  match file.text.toList with
  | '/' :: rest =>
    if rest.any fun c => c = '?' ∨ c = '%' then
      String.ofList (outsidePrefix ++ Text.percentEncode mustEscape rest)
    else file.text
  | _ => file.text

/-- The identifier of a request. -/
def serialize (r : Request) : String :=
  if r.query.isEmpty then writeFile r.file else writeFile r.file ++ "?" ++ r.query.text

/-- The identifier of a file's main module. -/
def mainId (file : FilePath) : String := writeFile file

/-- The identifier of the stylesheet that goes with a request. -/
def styleId (r : Request) : String := serialize r.styleRequest

theorem serialize_eq (r : Request) :
    serialize r = writeFile r.file ++ if r.query.isEmpty then "" else "?" ++ r.query.text := by
  unfold serialize
  split <;> simp [String.append_assoc]

/-! ## Reading -/

/-- Why an identifier is none of ours. -/
inductive Rejection where
  /-- It names no file. -/
  | unnamed
  /-- Its query is refused; it may belong to someone else. -/
  | malformed (e : QueryError)
  /-- It asks for the file itself or its address. -/
  | asset
  /-- It is neither marked nor names a component. -/
  | unowned
deriving DecidableEq, Repr

/-- The file that the file part of an identifier names: behind `/@fs/` with escapes read, an
absolute path as it is, any other behind the root. -/
def readFile (o : Options) (text : String) : FilePath :=
  match Text.stripPrefix? outsidePrefix text.toList with
  | some rest => .ofChars ('/' :: Text.percentDecode rest)
  | none => o.root.join ⟨text⟩

/-- How a file is shown. -/
def showFile (o : Options) (file : FilePath) : String :=
  match file.relativeTo? o.root with
  | some rest => "/" ++ rest
  | none => file.text

/-- The main request for a file that is known to be a component. -/
def requestFor (o : Options) (file : FilePath) (target : Target) : Request :=
  ⟨file, showFile o file, .empty, target, none⟩

/-- The request of an identifier, or why it is none of ours. -/
def read (o : Options) (id : String) (target : Target) (timestamp : Option Nat) :
    Except Rejection Request := do
  let (fileText, rawQuery?) := splitId id
  if fileText.isEmpty ∨ fileText.toList.head? = some '\x00' then throw .unnamed
  let query ←
    match rawQuery?.elim (.ok .empty) Query.parse with
    | .ok q => pure q
    | .error e => throw (.malformed e)
  if query.isAsset then throw .asset
  let file := readFile o fileText
  if !query.isMarked && !o.owns file.text then throw .unowned
  return ⟨file, showFile o file, query, target, timestamp⟩

/-- The request of an identifier, if it is ours. -/
def parse (o : Options) (id : String) (target : Target) (timestamp : Option Nat := none) :
    Option Request :=
  (read o id target timestamp).toOption

/-- What is said about reading an identifier: only that its query is refused. -/
def readingNotes (o : Options) (id : String) (target : Target) : Journal :=
  match read o id target none with
  | .error (.malformed e) => [.detail "id" ("not ours: `" ++ id ++ "` (" ++ e.message ++ ")")]
  | _ => []

theorem parse_eq_some_iff {o : Options} {id : String} {target : Target} {timestamp : Option Nat}
    {r : Request} : parse o id target timestamp = some r ↔ read o id target timestamp = .ok r := by
  unfold parse
  cases read o id target timestamp <;> simp [Except.toOption]

/-- The identifier that a marked identifier of a stylesheet resolves to. -/
def resolveVirtual (o : Options) (id : String) (target : Target) : Option String := do
  let r ← parse o id target
  if r.route = .style then some (serialize r) else none

end HotComponents.ModuleId
