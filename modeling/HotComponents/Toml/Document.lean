import HotComponents.Toml.Moment
import HotComponents.Toml.Quoted
import HotComponents.Toml.Table

/-!
# Documents

A document is read in two steps: its lines, each a header or an entry, and the table that the lines
make together. Arrays and tables between braces are nested less than eighty deep, and fewer than
eighty keys are dotted together.

* `ofLines?_append`: a document is made line by line.
-/

namespace HotComponents.Toml

open Reading

/-! ## Keys -/

/-- A key that needs no quotes. -/
def bareKey : Reading String :=
  String.ofList <$> run1 fun c => c.isAlphanum || c == '-' || c == '_'

/-- One key. -/
def simpleKey : Reading String :=
  bareKey <|> String.ofList <$> basicString <|> String.ofList <$> literalString

/-- The number of levels that do not fit any more. -/
def levelLimit : Nat := 80

/-- Keys with dots between them: all but the last, and the last. -/
def dottedKey : Reading (List String × String) := do
  let keys ← separated (do blanks; let key ← simpleKey; blanks; return key) (exactly ".")
  guard (keys.length < levelLimit)
  match keys.getLast? with
  | some last => return (keys.dropLast, last)
  | none => failure

/-! ## Values -/

/-- A value that is neither an array nor a table. -/
def scalar : Reading Value :=
  Value.string <$> anyString <|>
    (do exactly "true"; return .boolean true) <|>
    (do exactly "false"; return .boolean false) <|>
    (do moment; return .moment) <|>
    (do float; return .float) <|>
    Value.integer <$> integer

/-- An array of values that are read by `element`. -/
def arrayOf (element : Reading Value) : Reading Value := do
  exactly "["
  let elements ← separated (do gap; let v ← element; gap; return v) (exactly ",")
  if !elements.isEmpty then
    let _ ← optional (exactly ",")
  gap
  exactly "]"
  return .array elements

/-- A key and its value, read by `value`. -/
def entryOf (value : Reading Value) : Reading ((List String × String) × Value) := do
  let key ← dottedKey
  exactly "="
  blanks
  return (key, ← value)

/-- A table between braces of values that are read by `value`. -/
def bracesOf (value : Reading Value) : Reading Value := do
  exactly "\x7b"
  let pairs ← separated (do let e ← entryOf value; blanks; return e) (exactly ",")
  blanks
  exactly "\x7d"
  let entries ← pairs.foldlM (fun (entries : Entries) ((path, key), v) =>
    (entries.addDotted .braces path key v : Option Entries)) []
  return .table .braces entries

/-- A value with at most so many levels of arrays and tables between braces. -/
def value : Nat → Reading Value
  | 0 => scalar
  | levels + 1 =>
    let inner := value levels
    scalar <|> arrayOf inner <|> bracesOf inner

/-! ## Lines -/

/-- What a line says. -/
inductive Line where
  /-- A header between brackets. -/
  | header (path : List String) (key : String)
  /-- A header between double brackets. -/
  | table (path : List String) (key : String)
  /-- An entry of the table whose header came last. -/
  | entry (path : List String) (key : String) (v : Value)
  /-- Nothing. -/
  | blank
deriving Repr

/-- A line, with its end. -/
def line : Reading Line :=
  (do comment; lineEnd; return .blank) <|>
    (do newline; return .blank) <|>
    (do
      exactly "[["
      let (path, key) ← dottedKey
      exactly "]]"
      trailing
      return .table path key) <|>
    (do
      exactly "["
      let (path, key) ← dottedKey
      exactly "]"
      trailing
      return .header path key) <|>
    (do
      let ((path, key), v) ← entryOf (value (levelLimit - 1))
      trailing
      return .entry path key v)

/-- The lines of a text. A mark of the order of octets may stand in front of them. -/
def lines : Reading (List Line) := do
  let _ ← optional (exactly "\uFEFF")
  blanks
  many (do let l ← line; blanks; return l)

/-! ## The table of a document -/

/-- A document that is being made: its entries, and the header that came last. -/
structure Draft where
  entries : Entries := []
  current : List String := []
deriving Repr

/-- The document with one more line. -/
def Draft.add (d : Draft) : Line → Option Draft
  | .header path key => do
    return ⟨← d.entries.addHeader path key, path ++ [key]⟩
  | .table path key => do
    return ⟨← d.entries.addTable path key, path ++ [key]⟩
  | .entry path key v => do
    let entries ← Entries.alter .header
      (fun origin entries => entries.addDotted origin path key v) d.current .header d.entries
    return { d with entries }
  | .blank => some d

/-- The document that lines make. -/
def ofLines? (d : Draft) (ls : List Line) : Option Draft := ls.foldlM Draft.add d

theorem ofLines?_append (d : Draft) (ls more : List Line) :
    ofLines? d (ls ++ more) = (ofLines? d ls).bind fun d => ofLines? d more := by
  simp [ofLines?, List.foldlM_append]

/-- The entries of a document. -/
def read? (text : String) : Option Entries := do
  let ls ← lines.whole? text.toList
  return (← ofLines? {} ls).entries

end HotComponents.Toml
