import HotComponents.Pattern.Expr
import HotComponents.Pattern.Tree

/-!
# What a pattern means

A tree is given a meaning under a mode, which the flags of the pattern change: a flag holds to the
end of the group it stands in, also in later branches.

There are no tables of Unicode here, so classes, properties and case that need them are faults, and
with Unicode switched off everything must stay within ASCII, or a match could split a character.
-/

namespace HotComponents.Pattern

/-! ## Modes -/

/-- How a part of a pattern is to be understood. -/
structure Mode where
  caseInsensitive : Bool := false
  multiLine : Bool := false
  dotMatchesNewLine : Bool := false
  swapGreed : Bool := false
  unicode : Bool := true
  crlf : Bool := false
deriving DecidableEq, Repr

/-- The mode after a list of flags. -/
def Mode.apply (m : Mode) (flags : Flags) : Mode where
  caseInsensitive := (flags.state? .caseInsensitive).getD m.caseInsensitive
  multiLine := (flags.state? .multiLine).getD m.multiLine
  dotMatchesNewLine := (flags.state? .dotMatchesNewLine).getD m.dotMatchesNewLine
  swapGreed := (flags.state? .swapGreed).getD m.swapGreed
  unicode := (flags.state? .unicode).getD m.unicode
  crlf := (flags.state? .crlf).getD m.crlf

/-- The greatest number a class can hold. -/
def Mode.limit (m : Mode) : Nat := if m.unicode then 0x10FFFF else 0xFF

/-! ## Classes -/

/-- The ranges of a named ASCII class. -/
def AsciiClass.ranges : AsciiClass → CharSet
  | alnum => [(0x30, 0x39), (0x41, 0x5A), (0x61, 0x7A)]
  | alpha => [(0x41, 0x5A), (0x61, 0x7A)]
  | ascii => [(0, 0x7F)]
  | blank => [(0x09, 0x09), (0x20, 0x20)]
  | cntrl => [(0, 0x1F), (0x7F, 0x7F)]
  | digit => [(0x30, 0x39)]
  | graph => [(0x21, 0x7E)]
  | lower => [(0x61, 0x7A)]
  | print => [(0x20, 0x7E)]
  | punct => [(0x21, 0x2F), (0x3A, 0x40), (0x5B, 0x60), (0x7B, 0x7E)]
  | space => [(0x09, 0x0D), (0x20, 0x20)]
  | upper => [(0x41, 0x5A)]
  | word => [(0x30, 0x39), (0x41, 0x5A), (0x5F, 0x5F), (0x61, 0x7A)]
  | xdigit => [(0x30, 0x39), (0x41, 0x46), (0x61, 0x66)]

/-- The ASCII class that a Perl class is where Unicode is off. -/
def PerlClass.ascii : PerlClass → AsciiClass
  | digit => .digit
  | space => .space
  | word => .word

/-- A set in both cases of its letters. With Unicode on there are no tables for that, so no letters
may stand in it loosely, outside of sets that are in both cases already. -/
def fold (m : Mode) (span : Span) (loose : Bool) (s : CharSet) : Except Fault CharSet :=
  if !m.caseInsensitive then .ok s
  else if !m.unicode then .ok s.foldAscii
  else if loose then .error ⟨.caseFoldingUnavailable, span, none⟩
  else .ok s

/-- A set in both cases of its letters, and turned into its complement if it is negated. -/
def foldAndNegate (m : Mode) (span : Span) (negated loose : Bool) (s : CharSet) :
    Except Fault CharSet := do
  let s ← fold m span loose s
  let s := if negated then s.complement m.limit else s
  if m.unicode || s.isAscii then return s else throw ⟨.invalidUtf8, span, none⟩

/-- The set of a Perl class. -/
def perlSet (m : Mode) (span : Span) (kind : PerlClass) (negated : Bool) : Except Fault CharSet :=
  if m.unicode then .error ⟨.perlClassNotFound, span, none⟩
  else
    let s := kind.ascii.ranges
    let s := if negated then s.complement m.limit else s
    if s.isAscii then .ok s else .error ⟨.invalidUtf8, span, none⟩

/-- A name without its leading `is`, in any case. -/
def dropIs? : List Char → Option (List Char)
  | i :: s :: more => if i.toLower = 'i' ∧ s.toLower = 's' then some more else none
  | _ => none

/-- A property name without case, blanks, low lines, hyphens and a leading `is`, which stays in the
one name that is an `is` with one letter. -/
def looseName (name : List Char) : List Char :=
  let bare? := dropIs? name
  let kept := (bare?.getD name).filter fun c => c.toNat < 0x80 && c != ' ' && c != '_' && c != '-'
  let loose := kept.map Char.toLower
  if bare?.isSome && loose == ['c'] then "isc".toList else loose

/-- The fault of a property. The three names that could also name another property are looked up
among the values of a category. -/
def propertyFault (m : Mode) (span : Span) (p : Property) : Fault :=
  if !m.unicode then ⟨.unicodeNotAllowed, span, none⟩
  else
    match p with
    | .valued _ _ => ⟨.propertyNotFound, span, none⟩
    | .named name =>
      if ["cf".toList, "sc".toList, "lc".toList].contains (looseName name) then
        ⟨.propertyValueNotFound, span, none⟩
      else ⟨.propertyNotFound, span, none⟩

/-- The number of a literal. Where Unicode is off an octet beyond ASCII is no text. -/
def scalarOf (m : Mode) (l : Literal) : Except Fault Nat :=
  if !m.unicode && l.isOctet && 0x80 ≤ l.char.toNat then .error ⟨.invalidUtf8, l.span, none⟩
  else .ok l.char.toNat

/-- The number of a literal in a class. -/
def classScalar (m : Mode) (l : Literal) : Except Fault Nat := do
  let n ← scalarOf m l
  if !m.unicode && 0x80 ≤ n then throw ⟨.unicodeNotAllowed, l.span, none⟩
  return n

/-- What a set operation gives. -/
def SetOperation.run (limit : Nat) : SetOperation → CharSet → CharSet → CharSet
  | intersection => CharSet.intersection limit
  | difference => CharSet.difference limit
  | symmetricDifference => CharSet.symmetricDifference limit

mutual

/-- A character or a range stands in the class tree outside of inner sets. -/
def ClassTree.isLoose : ClassTree → Bool
  | .literal _ => true
  | .range _ _ _ => true
  | .union _ parts => ClassTree.isAnyLoose parts
  | _ => false

/-- A character or a range stands in one of the class trees outside of inner sets. -/
def ClassTree.isAnyLoose : List ClassTree → Bool
  | [] => false
  | t :: rest => t.isLoose || ClassTree.isAnyLoose rest

end

mutual

/-- The ranges of a class tree, in the order in which they are written. -/
def ClassTree.ranges (m : Mode) : ClassTree → Except Fault (List (Nat × Nat))
  | .empty _ => .ok []
  | .literal l => do
    let n ← classScalar m l
    return [(n, n)]
  | .range _ low high => do
    let l ← classScalar m low
    let h ← classScalar m high
    return [(l, h)]
  | .ascii span kind negated => foldAndNegate m span negated true kind.ranges
  | .perl span kind negated => perlSet m span kind negated
  | .property span p _ => .error (propertyFault m span p)
  | .bracketed span negated inner => do
    let s := CharSet.ofRanges (← inner.ranges m)
    foldAndNegate m span negated inner.isLoose s
  | .union _ parts => ClassTree.rangesOfAll m parts
  | .binary _ op left right => do
    let l := CharSet.ofRanges (← left.ranges m)
    let r := CharSet.ofRanges (← right.ranges m)
    let r ← fold m right.span right.isLoose r
    let l ← fold m left.span left.isLoose l
    return op.run m.limit l r

/-- The ranges of several class trees. -/
def ClassTree.rangesOfAll (m : Mode) : List ClassTree → Except Fault (List (Nat × Nat))
  | [] => .ok []
  | t :: rest => do
    let s ← t.ranges m
    return s ++ (← ClassTree.rangesOfAll m rest)

end

/-- The expression of a class between brackets. -/
def ClassTree.meaning (m : Mode) (span : Span) (negated : Bool) (inner : ClassTree) :
    Except Fault Expr := do
  let s := CharSet.ofRanges (← inner.ranges m)
  return Expr.ofSet m.unicode (← foldAndNegate m span negated inner.isLoose s)

/-! ## Patterns -/

/-- The condition of an assertion. -/
def Assertion.look (m : Mode) : Assertion → Look
  | lineStart => if m.multiLine then (if m.crlf then .breakStart else .lineStart) else .start
  | lineEnd => if m.multiLine then (if m.crlf then .breakStop else .lineStop) else .stop
  | textStart => .start
  | textEnd => .stop
  | wordBoundary => .word m.unicode .boundary
  | notWordBoundary => .word m.unicode .noBoundary
  | wordStart => .word m.unicode .start
  | wordEnd => .word m.unicode .stop
  | wordStartHalf => .word m.unicode .startHalf
  | wordEndHalf => .word m.unicode .stopHalf

/-- The set of a dot: all characters, or all but those that break a line. -/
def dotSet (m : Mode) : CharSet :=
  if m.dotMatchesNewLine then [(0, 0x10FFFF)]
  else if m.crlf then [(0, 9), (0xB, 0xC), (0xE, 0x10FFFF)]
  else [(0, 9), (0xB, 0x10FFFF)]

/-- The expression of a literal. -/
def literalMeaning (m : Mode) (l : Literal) : Except Fault Expr := do
  let n ← scalarOf m l
  if m.caseInsensitive then
    if m.unicode then throw ⟨.caseFoldingUnavailable, l.span, none⟩
    return Expr.ofSet false (CharSet.foldAscii [(n, n)])
  return .literal [Char.ofNat n]

mutual

/-- The expression of a tree under a mode, and the mode behind it. -/
def Tree.meaning (m : Mode) : Tree → Except Fault (Expr × Mode)
  | .empty _ => .ok (.empty, m)
  | .flags _ signs => .ok (.empty, m.apply signs)
  | .literal l => do return (← literalMeaning m l, m)
  | .dot span =>
    if m.unicode then .ok (.set true (dotSet m), m) else .error ⟨.invalidUtf8, span, none⟩
  | .assertion _ kind => .ok (.look (kind.look m), m)
  | .perl span kind negated => do return (Expr.ofSet false (← perlSet m span kind negated), m)
  | .property span p _ => .error (propertyFault m span p)
  | .bracketed span negated inner => do return (← inner.meaning m span negated, m)
  | .repetition _ least most reluctant sub => do
    let (e, m) ← sub.meaning m
    return (Expr.repeated least most (reluctant == m.swapGreed) e, m)
  | .group _ captures signs sub => do
    let (e, _) ← sub.meaning (m.apply signs)
    return (if captures then .capture e else e, m)
  | .alternation _ branches => do
    let (es, m) ← Tree.meaningOfAll m branches
    return (Expr.ofBranches es, m)
  | .concat _ parts => do
    let (es, m) ← Tree.meaningOfAll m parts
    return (Expr.ofParts es, m)

/-- The expressions of trees one behind another, each under the mode behind the one before. -/
def Tree.meaningOfAll (m : Mode) : List Tree → Except Fault (List Expr × Mode)
  | [] => .ok ([], m)
  | t :: rest => do
    let (e, m) ← t.meaning m
    let (es, m) ← Tree.meaningOfAll m rest
    return (e :: es, m)

end

end HotComponents.Pattern
