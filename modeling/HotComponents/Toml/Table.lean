/-!
# Values and tables

What a document holds. A table keeps its entries in the order in which they were first written, and
remembers how it came to be written, because that decides what may be added to it later: dotted keys
add to tables that dotted keys or longer headers made, headers add below every table but one between
braces.

* `keys_put`: putting a value under a key that is there keeps the keys and their order;
* `alter_nil`: no path leads to the table itself.
-/

namespace HotComponents.Toml

/-- How a table came to be written. -/
inductive Origin where
  /-- It has a header of its own, or is the document. -/
  | header
  /-- Only longer headers lead through it. -/
  | implied
  /-- Dotted keys lead through it. -/
  | dotted
  /-- It stands between braces. -/
  | braces
deriving DecidableEq, Repr

/-- A value. Of numbers with a fraction or an exponent and of dates and times only the kind is
kept. -/
inductive Value where
  | string (text : String)
  | boolean (b : Bool)
  | integer (n : Int)
  | float
  | moment
  | array (elements : List Value)
  | table (origin : Origin) (entries : List (String × Value))
  /-- Tables that share a header between double brackets: all but the last, and the last. -/
  | tables (earlier : List (List (String × Value))) (last : List (String × Value))
deriving Repr

/-- The entries of a table, in order. -/
abbrev Entries := List (String × Value)

namespace Entries

/-- The value under a key. -/
def get? (entries : Entries) (key : String) : Option Value :=
  (entries.find? fun e => e.1 = key).map Prod.snd

/-- The entries with another value under a key that is there. -/
def put (entries : Entries) (key : String) (v : Value) : Entries :=
  entries.map fun e => if e.1 = key then (key, v) else e

theorem keys_put (entries : Entries) (key : String) (v : Value) :
    (entries.put key v).map Prod.fst = entries.map Prod.fst := by
  rw [put, List.map_map]
  apply List.map_congr_left
  intro e _
  by_cases h : e.1 = key <;> simp [h]

/-- The entries without a key. -/
def erase (entries : Entries) (key : String) : Entries := entries.filter fun e => e.1 ≠ key

/-- The ways to a table below another. -/
inductive Way where
  /-- Along the keys of a header. -/
  | header
  /-- Along dotted keys. -/
  | dotted
deriving DecidableEq, Repr

/-- How a table that a way leads through comes to be written. -/
def Way.makes : Way → Origin
  | .header => .implied
  | .dotted => .dotted

/-- The way may lead through a table. -/
def Way.enters : Way → Origin → Bool
  | .header, origin => origin != .braces
  | .dotted, origin => origin == .implied || origin == .dotted

/-- The entries of a table with a change in the table that a way leads to. Tables that are missing
on the way are made; of tables that share a header the way leads through the last. -/
def alter (way : Way) (change : Origin → Entries → Option Entries) :
    List String → Origin → Entries → Option Entries
  | [], origin, entries => change origin entries
  | key :: path, _, entries => do
    match entries.get? key with
    | none =>
      let inner ← alter way change path way.makes []
      return entries ++ [(key, .table way.makes inner)]
    | some (.table origin inner) =>
      guard (way.enters origin)
      return entries.put key (.table origin (← alter way change path origin inner))
    | some (.tables earlier last) =>
      return entries.put key (.tables earlier (← alter way change path .header last))
    | some _ => failure

theorem alter_nil (way : Way) (change : Origin → Entries → Option Entries) (origin : Origin)
    (entries : Entries) : alter way change [] origin entries = change origin entries := rfl

/-- The entries with one more, if its key is new. -/
def add (entries : Entries) (key : String) (v : Value) : Option Entries := do
  guard (entries.get? key).isNone
  return entries ++ [(key, v)]

/-- The entries of a table with one more under dotted keys. If there are several, the last table on
the way has to be one of dotted keys. -/
def addDotted (entries : Entries) (origin : Origin) (path : List String) (key : String)
    (v : Value) : Option Entries :=
  alter .dotted (fun origin entries => do
    guard (path.isEmpty || origin == .dotted)
    entries.add key v) path origin entries

/-- The entries of a document under a header: the table is new, or so far only longer headers led
through it, and then it moves behind all others. -/
def addHeader (entries : Entries) (path : List String) (key : String) : Option Entries :=
  alter .header (fun _ entries =>
    match entries.get? key with
    | none => some (entries ++ [(key, .table .header [])])
    | some (.table .implied inner) => some (entries.erase key ++ [(key, .table .header inner)])
    | some _ => none) path .header entries

/-- The entries of a document under a header between double brackets: one more table. -/
def addTable (entries : Entries) (path : List String) (key : String) : Option Entries :=
  alter .header (fun _ entries =>
    match entries.get? key with
    | none => some (entries ++ [(key, .tables [] [])])
    | some (.tables earlier last) => some (entries.put key (.tables (earlier ++ [last]) []))
    | some _ => none) path .header entries

end Entries

end HotComponents.Toml
