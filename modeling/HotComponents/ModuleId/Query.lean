import HotComponents.Text.Form

/-!
# The query of a module identifier

An identifier names a file and, after a `?`, flags. Seven flags are tracked; every other key belongs
to someone else and is passed over. A flag stands at most once and takes no value, except `type`,
which names an artifact.

* `Query.ofPairs_append`: reading goes pair by pair;
* `Flag.ofPair_eq_ok_none_iff`: a pair is passed over exactly when its key is not tracked.
-/

namespace HotComponents.ModuleId

/-! ## Flags -/

/-- The keys that are tracked. -/
inductive FlagKey where
  | marker | type | langCss | raw | url | direct | sourcemap
deriving DecidableEq, Repr

/-- The text of a key. -/
def FlagKey.text : FlagKey → String
  | marker => "svelte"
  | type => "type"
  | langCss => "lang.css"
  | raw => "raw"
  | url => "url"
  | direct => "direct"
  | sourcemap => "sourcemap"

/-- All tracked keys. -/
def FlagKey.all : List FlagKey := [marker, type, langCss, raw, url, direct, sourcemap]

/-- The tracked key with a given text. -/
def FlagKey.ofChars? (cs : List Char) : Option FlagKey :=
  FlagKey.all.find? fun key => key.text.toList == cs

/-- A part of a component that is served as a module of its own. -/
inductive Artifact where
  /-- The stylesheet. -/
  | style
deriving DecidableEq, Repr

/-- The text of an artifact. -/
def Artifact.text : Artifact → String
  | style => "style"

/-- The artifact with a given text. -/
def Artifact.ofChars? (cs : List Char) : Option Artifact :=
  if Artifact.style.text.toList = cs then some .style else none

/-- A tracked flag. -/
inductive Flag where
  /-- The identifier was made by this session. -/
  | marker
  /-- The artifact that is asked for. -/
  | artifact (a : Artifact)
  /-- Lets stylesheet tools pick the module up. -/
  | langCss
  /-- The file itself is asked for. -/
  | raw
  /-- The address of the file is asked for. -/
  | url
  /-- A stylesheet asked for on its own. -/
  | direct
  /-- The source map is asked for. -/
  | sourcemap
deriving DecidableEq, Repr

namespace Flag

/-- The key of a flag. -/
def key : Flag → FlagKey
  | marker => .marker
  | artifact _ => .type
  | langCss => .langCss
  | raw => .raw
  | url => .url
  | direct => .direct
  | sourcemap => .sourcemap

/-- The text of a flag: its key and, if it takes one, its value. -/
def text : Flag → String
  | artifact a => FlagKey.type.text ++ "=" ++ a.text
  | flag => flag.key.text

/-- The flag of a key that takes no value. -/
def ofKey? : FlagKey → Option Flag
  | .type => none
  | .marker => some marker
  | .langCss => some langCss
  | .raw => some raw
  | .url => some url
  | .direct => some direct
  | .sourcemap => some sourcemap

end Flag

/-! ## Errors -/

/-- Why a query is refused. -/
inductive QueryError where
  /-- The `type` flag names no artifact. -/
  | unknownType (value : String)
  /-- A flag that takes no value has one. -/
  | unexpectedValue (key : FlagKey)
  /-- A flag is given again. -/
  | duplicate (key : FlagKey)
deriving DecidableEq, Repr

/-- The wording of an error. -/
def QueryError.message : QueryError → String
  | unknownType value => "unknown virtual module type `" ++ value ++ "`"
  | unexpectedValue key => "flag `" ++ key.text ++ "` does not take a value"
  | duplicate key => "flag `" ++ key.text ++ "` given more than once"

/-! ## Queries -/

/-- The tracked flags of an identifier, in order. -/
structure Query where
  flags : List Flag
deriving DecidableEq, Repr, Inhabited

/-- The flag of a pair; `none` for a pair that is passed over. No value and `true` mean the same. -/
def Flag.ofPair (key value : List Char) : Except QueryError (Option Flag) :=
  match FlagKey.ofChars? key with
  | none => .ok none
  | some k =>
    match Flag.ofKey? k with
    | none =>
      match Artifact.ofChars? value with
      | some a => .ok (some (.artifact a))
      | none => .error (.unknownType (String.ofList value))
    | some flag =>
      if value = [] ∨ value = "true".toList then .ok (some flag) else .error (.unexpectedValue k)

namespace Query

/-- No flags. -/
def empty : Query := ⟨[]⟩

/-- The query of a derived stylesheet. -/
def style : Query := ⟨[.marker, .artifact .style, .langCss]⟩

/-- A query with one more flag behind its others. -/
def push (q : Query) (flag : Flag) : Except QueryError Query :=
  if q.flags.any fun f => f.key == flag.key then .error (.duplicate flag.key)
  else .ok ⟨q.flags ++ [flag]⟩

/-- A query with what a pair adds to it. -/
def pushPair (q : Query) (pair : List Char × List Char) : Except QueryError Query := do
  match ← Flag.ofPair pair.1 pair.2 with
  | none => return q
  | some flag => q.push flag

/-- The query that pairs add up to; the first error counts. -/
def ofPairs (pairs : List (List Char × List Char)) : Except QueryError Query :=
  pairs.foldlM pushPair empty

/-- The query that a text without its `?` stands for. -/
def parse (raw : String) : Except QueryError Query := ofPairs (Text.formPairs raw.toList)

/-- The text of a query. -/
def text (q : Query) : String := "&".intercalate (q.flags.map Flag.text)

/-- The query has no flag. -/
def isEmpty (q : Query) : Bool := q.flags.isEmpty

/-- The query has the flag. -/
def has (q : Query) (flag : Flag) : Bool := q.flags.contains flag

/-- The identifier was made by this session. -/
def isMarked (q : Query) : Bool := q.has .marker

/-- The artifact that is asked for. -/
def artifact? (q : Query) : Option Artifact :=
  q.flags.findSome? fun
    | .artifact a => some a
    | _ => none

/-- The file is asked for as it is, or its address is; others serve that. -/
def isAsset (q : Query) : Bool := q.has .raw || q.has .url

theorem ofPairs_append (pairs more : List (List Char × List Char)) :
    ofPairs (pairs ++ more) = (ofPairs pairs).bind fun q => more.foldlM pushPair q := by
  simp [ofPairs, List.foldlM_append]
  rfl

end Query

/-- A pair is passed over exactly when its key is not tracked. -/
theorem Flag.ofPair_eq_ok_none_iff {key value : List Char} :
    Flag.ofPair key value = .ok none ↔ FlagKey.ofChars? key = none := by
  unfold Flag.ofPair
  split
  · simp_all
  · split
    · split <;> simp_all
    · split <;> simp_all

end HotComponents.ModuleId
