import HotComponents.Pattern.Fault

/-!
# Pattern trees

A pattern as it is written: every node knows its place, because faults found later, when the tree
is given a meaning, show it.
-/

namespace HotComponents.Pattern

/-! ## Leaves -/

/-- A literal character. -/
structure Literal where
  span : Span
  char : Char
  /-- Written as `\x` and two digits, which names an octet where Unicode is off. -/
  isOctet : Bool
deriving DecidableEq, Repr

/-- The named ASCII classes. -/
inductive AsciiClass where
  | alnum | alpha | ascii | blank | cntrl | digit | graph | lower | print | punct | space | upper
  | word | xdigit
deriving DecidableEq, Repr

/-- The classes written by one escaped letter. -/
inductive PerlClass where
  | digit | space | word
deriving DecidableEq, Repr

/-- What is demanded of a place without consuming anything. -/
inductive Assertion where
  | lineStart | lineEnd | textStart | textEnd
  | wordBoundary | notWordBoundary | wordStart | wordEnd | wordStartHalf | wordEndHalf
deriving DecidableEq, Repr

/-- A Unicode property: one letter, a name, or a name with a value. -/
inductive Property where
  | named (name : List Char)
  | valued (name value : List Char)
deriving DecidableEq, Repr

/-- The flags that a group can set. -/
inductive GroupFlag where
  | caseInsensitive | multiLine | dotMatchesNewLine | swapGreed | unicode | crlf | ignoreBlank
deriving DecidableEq, Repr

/-- One sign in a list of flags. -/
inductive FlagSign where
  | negation
  | flag (f : GroupFlag)
deriving DecidableEq, Repr

/-- The signs of a list of flags, each with its place. -/
abbrev Flags := List (FlagSign × Span)

/-- What a list of flags says about one flag: set unless a negation stands before it. -/
def Flags.state? (flags : Flags) (f : GroupFlag) : Option Bool :=
  match (flags.map Prod.fst).span (· ≠ .flag f) with
  | (_, []) => none
  | (signs, _ :: _) => some (!signs.contains .negation)

/-! ## Classes -/

/-- How two sets of a class are combined. -/
inductive SetOperation where
  | intersection | difference | symmetricDifference
deriving DecidableEq, Repr

/-- What stands between brackets. -/
inductive ClassTree where
  | empty (span : Span)
  | literal (l : Literal)
  | range (span : Span) (low high : Literal)
  | ascii (span : Span) (kind : AsciiClass) (negated : Bool)
  | perl (span : Span) (kind : PerlClass) (negated : Bool)
  | property (span : Span) (p : Property) (negated : Bool)
  | bracketed (span : Span) (negated : Bool) (inner : ClassTree)
  | union (span : Span) (parts : List ClassTree)
  | binary (span : Span) (op : SetOperation) (left right : ClassTree)
deriving Repr

namespace ClassTree

/-- The place of a class tree. -/
def span : ClassTree → Span
  | empty s => s
  | literal l => l.span
  | range s _ _ => s
  | ascii s _ _ => s
  | perl s _ _ => s
  | property s _ _ => s
  | bracketed s _ _ => s
  | union s _ => s
  | binary s _ _ _ => s

/-- The tree of the parts of a class: nothing, the one part, or a union. -/
def ofParts (span : Span) : List ClassTree → ClassTree
  | [] => empty span
  | [part] => part
  | parts => union span parts

end ClassTree

/-! ## Patterns -/

/-- A pattern. -/
inductive Tree where
  | empty (span : Span)
  | flags (span : Span) (flags : Flags)
  | literal (l : Literal)
  | dot (span : Span)
  | assertion (span : Span) (kind : Assertion)
  | perl (span : Span) (kind : PerlClass) (negated : Bool)
  | property (span : Span) (p : Property) (negated : Bool)
  | bracketed (span : Span) (negated : Bool) (inner : ClassTree)
  /-- As often as possible first or, if reluctant, as seldom as possible. -/
  | repetition (span : Span) (least : Nat) (most : Option Nat) (reluctant : Bool) (sub : Tree)
  | group (span : Span) (captures : Bool) (flags : Flags) (sub : Tree)
  | alternation (span : Span) (branches : List Tree)
  | concat (span : Span) (parts : List Tree)
deriving Repr

namespace Tree

/-- The place of a tree. -/
def span : Tree → Span
  | empty s => s
  | flags s _ => s
  | literal l => l.span
  | dot s => s
  | assertion s _ => s
  | perl s _ _ => s
  | property s _ _ => s
  | bracketed s _ _ => s
  | repetition s _ _ _ _ => s
  | group s _ _ _ => s
  | alternation s _ => s
  | concat s _ => s

/-- The tree of a sequence of parts: nothing, the one part, or a concatenation. -/
def ofParts (span : Span) : List Tree → Tree
  | [] => empty span
  | [part] => part
  | parts => concat span parts

/-- The tree can be repeated: flags on their own cannot. -/
def isRepeatable : Tree → Bool
  | empty _ => false
  | flags _ _ => false
  | _ => true

end Tree

/-! ## Nesting -/

/-- The nesting that is allowed. -/
def nestLimit : Nat := 250

/-- One level deeper at a place, if that is allowed. -/
def deeper (depth : Nat) (span : Span) : Except Fault Nat :=
  if depth < nestLimit then .ok (depth + 1) else .error ⟨.nestLimitExceeded nestLimit, span, none⟩

mutual

/-- The first place of a class tree that lies too deep, from a given depth on. -/
def ClassTree.checkNesting (depth : Nat) : ClassTree → Except Fault Unit
  | .bracketed s _ inner => do inner.checkNesting (← deeper depth s)
  | .union s parts => do ClassTree.checkAllNesting (← deeper depth s) parts
  | .binary s _ left right => do
    let depth ← deeper depth s
    left.checkNesting depth
    right.checkNesting depth
  | _ => .ok ()

/-- The first place of several class trees that lies too deep. -/
def ClassTree.checkAllNesting (depth : Nat) : List ClassTree → Except Fault Unit
  | [] => .ok ()
  | t :: rest => do
    t.checkNesting depth
    ClassTree.checkAllNesting depth rest

end

mutual

/-- The first place of a tree that lies too deep, from a given depth on. -/
def Tree.checkNesting (depth : Nat) : Tree → Except Fault Unit
  | .bracketed s _ inner => do inner.checkNesting (← deeper depth s)
  | .repetition s _ _ _ sub => do sub.checkNesting (← deeper depth s)
  | .group s _ _ sub => do sub.checkNesting (← deeper depth s)
  | .alternation s branches => do Tree.checkAllNesting (← deeper depth s) branches
  | .concat s parts => do Tree.checkAllNesting (← deeper depth s) parts
  | _ => .ok ()

/-- The first place of several trees that lies too deep. -/
def Tree.checkAllNesting (depth : Nat) : List Tree → Except Fault Unit
  | [] => .ok ()
  | t :: rest => do
    t.checkNesting depth
    Tree.checkAllNesting depth rest

end

end HotComponents.Pattern
