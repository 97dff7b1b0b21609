import HotComponents.Pattern.Cursor
import HotComponents.Text.Digits
import HotComponents.Text.Letters

/-!
# Reading a pattern

From the text of a pattern to its tree, or to the first fault. Every loop takes at least one
character in each turn, so each runs at most once for every character that is left; that number is
passed down as fuel and never runs out.
-/

namespace HotComponents.Pattern

open Reading

/-! ## Characters -/

/-- The characters that mean something in a pattern. -/
def metaCharacters : List Char := "\\.+*?()|[]\x7b\x7d^$#&-~".toList

/-- The character may be written behind a backslash and then stands for itself: any ASCII character
but letters, digits and angle brackets. -/
def isEscapable (c : Char) : Bool :=
  metaCharacters.contains c ||
    (c.toNat < 0x80 && !c.isAlphanum && c != '<' && c != '>')

/-- The characters that a backslash and a letter stand for. -/
def specialCharacter? : Char → Option Char
  | 'a' => some '\x07'
  | 'f' => some '\x0C'
  | 't' => some '\t'
  | 'n' => some '\n'
  | 'r' => some '\r'
  | 'v' => some '\x0B'
  | _ => none

/-! ## Escapes -/

/-- Characters of `accepted`, blanks between them passed over. -/
def takeSpaced (accepted : Char → Bool) : Nat → Reading (List Char)
  | 0 => return []
  | fuel + 1 => do
    match ← look with
    | some c =>
      if accepted c then
        let _ ← bumpSpace
        return c :: (← takeSpaced accepted fuel)
      else return []
    | none => return []

/-- The hexadecimal digits of an escape of fixed width, `n` of them still to come. -/
def hexFixed : Nat → Reading (List Char)
  | 0 => return []
  | n + 1 => do
    match ← look with
    | none => fail .escapeUnexpectedEnd (← spanHere)
    | some c =>
      if (Text.hexValue? c).isNone then fail .escapeHexInvalidDigit (← spanChar)
      let more ← bumpSpace
      if n ≠ 0 ∧ !more then fail .escapeUnexpectedEnd (← spanHere)
      return c :: (← hexFixed n)

/-- The hexadecimal digits before the closing brace of an escape, from behind its opening brace. -/
def hexBraced : Nat → Reading (List Char)
  | 0 => return []
  | fuel + 1 => do
    match ← look with
    | none => return []
    | some '\x7d' => return []
    | some c =>
      if (Text.hexValue? c).isNone then fail .escapeHexInvalidDigit (← spanChar)
      let _ ← bumpSpace
      return c :: (← hexBraced fuel)

/-- The rest of an escape by number, from its letter on. -/
def readHex (start : Position) (letter : Char) (fuel : Nat) : Reading Literal := do
  if !(← bumpSpace) then fail .escapeUnexpectedEnd (← spanHere)
  if (← look) = some '\x7b' then
    let brace ← place
    -- A number that is no scalar value is marked between the braces.
    let inside := (← spanChar).stop
    let _ ← bumpSpace
    let digits ← hexBraced fuel
    if (← look).isNone then fail .escapeUnexpectedEnd (← spanFrom brace)
    let stop ← place
    let _ ← bumpSpace
    if digits.isEmpty then fail .escapeHexEmpty (← spanFrom brace)
    match Text.scalar? (Text.digitsValue 16 digits) with
    | none => fail .escapeHexInvalid ⟨inside, stop⟩
    | some c => return ⟨← spanFrom start, c, false⟩
  else
    let inside ← place
    let digits ← hexFixed (if letter = 'x' then 2 else if letter = 'u' then 4 else 8)
    match Text.scalar? (Text.digitsValue 16 digits) with
    | none => fail .escapeHexInvalid (← spanFrom inside)
    | some c => return ⟨← spanFrom start, c, letter = 'x'⟩

/-- A property by name, or by name and value: the sign between them is `!=`, else `:`, else `=`. -/
def Property.ofName (name : List Char) : Property :=
  match Text.splitAround? ['!', '='] name with
  | some (n, v) => .valued n v
  | none =>
    match Text.splitFirst? ':' name with
    | some (n, v) => .valued n v
    | none =>
      match Text.splitFirst? '=' name with
      | some (n, v) => .valued n v
      | none => .named name

/-- The rest of a property class, from its letter on. -/
def readProperty (start : Position) (negated : Bool) (fuel : Nat) : Reading Tree := do
  if !(← bumpSpace) then fail .escapeUnexpectedEnd (← spanHere)
  if (← look) = some '\x7b' then
    let _ ← bumpSpace
    let name ← takeSpaced (· ≠ '\x7d') fuel
    if (← look).isNone then fail .escapeUnexpectedEnd (← spanHere)
    let _ ← bump
    return .property (← spanFrom start) (Property.ofName name) negated
  else
    let c := (← look).getD 'a'
    if c = '\\' then fail .propertyInvalid (← spanChar)
    let _ ← bumpSpace
    return .property (← spanFrom start) (.named [c]) negated

/-- A word boundary of a special kind behind `\b`, which began at `start`; `none`, and nothing
read, where the brace begins a counted repetition. -/
def readSpecialBoundary? (start : Position) (fuel : Nat) : Reading (Option Assertion) := do
  let before ← get
  if !(← bumpSpace) then fail .wordBoundaryUnexpectedEnd (← spanFrom start)
  let accepted := fun (c : Char) => c.isAlpha || c == '-'
  let inside ← place
  if !((← look).any accepted) then
    -- No name can begin here, so the brace is left to a counted repetition.
    set before
    return none
  let name ← takeSpaced accepted fuel
  if (← look) ≠ some '\x7d' then fail .wordBoundaryUnclosed (← spanFrom before.place)
  let stop ← place
  let _ ← bump
  if name = "start".toList then return some .wordStart
  if name = "end".toList then return some .wordEnd
  if name = "start-half".toList then return some .wordStartHalf
  if name = "end-half".toList then return some .wordEndHalf
  fail .wordBoundaryUnrecognized ⟨inside, stop⟩

/-- An escape, from its backslash on. -/
def readEscape (fuel : Nat) : Reading Tree := do
  let start ← place
  if !(← bump) then fail .escapeUnexpectedEnd (← spanFrom start)
  let c := (← look).getD 'a'
  -- There are no back references, and no octal escapes either.
  if c.isDigit then fail .backreference ⟨start, (← spanChar).stop⟩
  if c = 'x' ∨ c = 'u' ∨ c = 'U' then return .literal (← readHex start c fuel)
  if c = 'p' ∨ c = 'P' then return ← readProperty start (c = 'P') fuel
  let _ ← bump
  let span ← spanFrom start
  match c with
  | 'd' => return .perl span .digit false
  | 'D' => return .perl span .digit true
  | 's' => return .perl span .space false
  | 'S' => return .perl span .space true
  | 'w' => return .perl span .word false
  | 'W' => return .perl span .word true
  | 'A' => return .assertion span .textStart
  | 'z' => return .assertion span .textEnd
  | 'B' => return .assertion span .notWordBoundary
  | '<' => return .assertion span .wordStart
  | '>' => return .assertion span .wordEnd
  | 'b' =>
    if (← look) = some '\x7b' then
      match ← readSpecialBoundary? start fuel with
      | some kind => return .assertion (← spanFrom start) kind
      | none => return .assertion span .wordBoundary
    else return .assertion span .wordBoundary
  | _ =>
    -- A sign with a meaning stands for itself; a letter without one is not escaped.
    if isEscapable c then return .literal ⟨span, c, false⟩
    match specialCharacter? c with
    | some special => return .literal ⟨span, special, false⟩
    | none => fail .escapeUnrecognized span

/-! ## Classes -/

/-- The ASCII class of a name. -/
def AsciiClass.ofName? (name : List Char) : Option AsciiClass :=
  [("alnum", AsciiClass.alnum), ("alpha", .alpha), ("ascii", .ascii), ("blank", .blank),
    ("cntrl", .cntrl), ("digit", .digit), ("graph", .graph), ("lower", .lower), ("print", .print),
    ("punct", .punct), ("space", .space), ("upper", .upper), ("word", .word),
    ("xdigit", .xdigit)].findSome? fun (text, kind) =>
      if text.toList = name then some kind else none

/-- A named ASCII class such as `[:alpha:]`; `none`, and nothing read, if none stands here. -/
def readAsciiClass? : Reading (Option ClassTree) := do
  let before ← get
  if !(← bumpIf "[:") then return none
  let negated ← bumpIf "^"
  let name := (← get).rest.takeWhile (· ≠ ':')
  let _ ← bumpIf (String.ofList name)
  match AsciiClass.ofName? name with
  | some kind =>
    if ← bumpIf ":]" then return some (.ascii (← spanFrom before.place) kind negated)
    -- Anything but the exact form is a class of its own, read again from its bracket on.
    set before
    return none
  | none =>
    set before
    return none

/-- A primitive as an item of a class. -/
def ClassTree.ofPrimitive : Tree → Reading ClassTree
  | .literal l => return .literal l
  | .perl s kind negated => return .perl s kind negated
  | .property s p negated => return .property s p negated
  | t => fail .classEscapeInvalid t.span

/-- A primitive as an end of a range. -/
def Literal.ofPrimitive : Tree → Reading Literal
  | .literal l => return l
  | t => fail .classRangeLiteral t.span

/-- One character of a class or an escape. -/
def readClassPrimitive (fuel : Nat) : Reading Tree := do
  let c := (← look).getD 'a'
  if c = '\\' then readEscape fuel
  else
    let span ← spanChar
    let _ ← bump
    return .literal ⟨span, c, false⟩

/-- An item of a class or a range; the class was opened at `opening`. -/
def readRange (opening : Span) (fuel : Nat) : Reading ClassTree := do
  let low ← readClassPrimitive fuel
  skipBlank
  let c ← get
  if c.rest.isEmpty then fail .classUnclosed opening
  -- A hyphen at the end of a class, or one of two, makes no range.
  if c.rest.head? ≠ some '-' ∨ c.peekSolid? = some ']' ∨ c.peekSolid? = some '-' then
    return ← ClassTree.ofPrimitive low
  if !(← bumpSpace) then fail .classUnclosed opening
  let high ← readClassPrimitive fuel
  let span : Span := ⟨low.span.start, high.span.stop⟩
  let l ← Literal.ofPrimitive low
  let h ← Literal.ofPrimitive high
  if h.char.toNat < l.char.toNat then fail .classRangeInvalid span
  return .range span l h

/-- Hyphens at the beginning of a class, each standing for itself. -/
def leadingHyphens (start : Position) : Nat → Reading (List ClassTree)
  | 0 => return []
  | fuel + 1 => do
    if (← look) = some '-' then
      let item := ClassTree.literal ⟨← spanChar, '-', false⟩
      if !(← bumpSpace) then fail .classUnclosed (.point start)
      return item :: (← leadingHyphens start fuel)
    else return []

/-- The beginning of a class: its span so far, whether it is negated, and the hyphens or the closing
bracket that stand there for themselves. -/
def openClass (fuel : Nat) : Reading (Span × Bool × List ClassTree) := do
  let start ← place
  if !(← bumpSpace) then fail .classUnclosed (← spanFrom start)
  let negated := (← look) = some '^'
  if negated then
    if !(← bumpSpace) then fail .classUnclosed (← spanFrom start)
  let hyphens ← leadingHyphens start fuel
  let bracket ←
    -- A class is never empty: a bracket right behind its opening is one of its characters.
    if hyphens.isEmpty ∧ (← look) = some ']' then do
      let item := ClassTree.literal ⟨← spanChar, ']', false⟩
      if !(← bumpSpace) then fail .classUnclosed (← spanFrom start)
      pure [item]
    else pure []
  return (← spanFrom start, negated, hyphens ++ bracket)

/-- The items read since the last set operation, the latest first, as one tree; `here` is where they
were awaited. -/
def gather (here : Position) (items : List ClassTree) : ClassTree :=
  match items with
  | [] => .empty (.point here)
  | last :: earlier =>
    ClassTree.ofParts ⟨(earlier.getLastD last).span.start, last.span.stop⟩ items.reverse

/-- A set operation that waits for its right side. -/
abbrev Pending := Option (SetOperation × ClassTree)

/-- What a waiting operation gives with its right side. -/
def Pending.close (pending : Pending) (right : ClassTree) : ClassTree :=
  match pending with
  | none => right
  | some (op, left) => .binary ⟨left.span.start, right.span.stop⟩ op left right

/-- The set operation whose sign, a doubled character, comes next. -/
def nextOperation? (c : Cursor) : Option SetOperation :=
  match c.rest with
  | '&' :: '&' :: _ => some .intersection
  | '-' :: '-' :: _ => some .difference
  | '~' :: '~' :: _ => some .symmetricDifference
  | _ => none

/-- The rest of a class that was opened at `opening`, up to and with its closing bracket, behind the
items since the last set operation, the latest first. -/
def classBody (opening : Span) (negated : Bool) (fuel : Nat) (here : Position)
    (items : List ClassTree) (pending : Pending) : Reading ClassTree :=
  match fuel with
  | 0 => fail .classUnclosed opening
  | fuel + 1 => do
    skipBlank
    let c ← get
    match c.rest with
    | [] => fail .classUnclosed opening
    | '[' :: _ =>
      match ← readAsciiClass? with
      | some item => classBody opening negated fuel here (item :: items) pending
      | none =>
        let (span, innerNegated, first) ← openClass fuel
        let inner ← classBody span innerNegated fuel span.stop first.reverse none
        classBody opening negated fuel here (inner :: items) pending
    | ']' :: _ =>
      let tree := pending.close (gather here items)
      let _ ← bump
      return .bracketed (← spanFrom opening.start) negated tree
    | _ =>
      match nextOperation? c with
      | some op =>
        -- Operations associate to the left, whichever they are.
        let left := pending.close (gather here items)
        let _ ← bump
        let _ ← bump
        classBody opening negated fuel (← place) [] (some (op, left))
      | none =>
        let item ← readRange opening fuel
        classBody opening negated fuel here (item :: items) pending

/-- A class, from its opening bracket on. -/
def readClass (fuel : Nat) : Reading Tree := do
  let (span, negated, first) ← openClass fuel
  match ← classBody span negated fuel span.stop first.reverse none with
  | .bracketed s n inner => return .bracketed s n inner
  | other => return .bracketed span negated other

/-! ## Repetitions -/

/-- A decimal number below 2³², blanks around it passed over. -/
def readDecimal (fuel : Nat) : Reading (Except Fault Nat) := do
  modify Cursor.skipPlainBlank
  let start ← place
  let digits ← takeSpaced Char.isDigit fuel
  let span ← spanFrom start
  modify Cursor.skipPlainBlank
  if digits.isEmpty then return .error ⟨.repetitionCountEmpty, span, none⟩
  let n := digits.foldl (fun n d => n * 10 + (d.toNat - 48)) 0
  if n < UInt32.size then return .ok n
  return .error ⟨.decimalInvalid, span, none⟩

/-- The latest of the parts read so far, which a repetition is about, and the parts before it. -/
def latestRepeatable (parts : List Tree) : Reading (Tree × List Tree) := do
  match parts with
  | t :: earlier =>
    if t.isRepeatable then return (t, earlier) else fail .repetitionMissing (← spanHere)
  | [] => fail .repetitionMissing (← spanHere)

/-- The sign behind a repetition that makes it reluctant, if it stands there. -/
def readReluctance : Reading Bool := do
  if (← look) = some '?' then
    let _ ← bump
    return true
  else return false

/-- A repetition by one sign, about the latest of the parts. -/
def readRepetition (parts : List Tree) (least : Nat) (most : Option Nat) :
    Reading (List Tree) := do
  let (t, earlier) ← latestRepeatable parts
  let _ ← bump
  let reluctant ← readReluctance
  return .repetition ⟨t.span.start, ← place⟩ least most reluctant t :: earlier

/-- The counts between braces, from the opening brace at `start` on. -/
def readCounts (start : Position) (fuel : Nat) : Reading (Nat × Option Nat) := do
  if !(← bumpSpace) then fail .repetitionCountUnclosed (← spanFrom start)
  -- A fault in a count is kept back until the sign behind it has been seen.
  let least ← readDecimal fuel
  match ← look with
  | none => fail .repetitionCountUnclosed (← spanFrom start)
  | some ',' =>
    if !(← bumpSpace) then fail .repetitionCountUnclosed (← spanFrom start)
    if (← look) = some '\x7d' then return (← least, none)
    let least ← least
    let most ← readDecimal fuel
    return (least, some (← most))
  | some _ =>
    let least ← least
    return (least, some least)

/-- A repetition by counts, from its opening brace on, about the latest of the parts. -/
def readCounted (parts : List Tree) (fuel : Nat) : Reading (List Tree) := do
  let start ← place
  let (t, earlier) ← latestRepeatable parts
  let (least, most) ← readCounts start fuel
  if (← look) ≠ some '\x7d' then fail .repetitionCountUnclosed (← spanFrom start)
  let reluctant ← if ← bumpSpace then readReluctance else pure false
  if most.any (· < least) then fail .repetitionCountInvalid (← spanFrom start)
  return .repetition ⟨t.span.start, ← place⟩ least most reluctant t :: earlier

/-! ## Groups -/

/-- The flag of a letter. -/
def GroupFlag.ofChar? : Char → Option GroupFlag
  | 'i' => some .caseInsensitive
  | 'm' => some .multiLine
  | 's' => some .dotMatchesNewLine
  | 'U' => some .swapGreed
  | 'u' => some .unicode
  | 'R' => some .crlf
  | 'x' => some .ignoreBlank
  | _ => none

/-- Flags up to the colon or parenthesis that ends them, which comes next afterwards. -/
def readFlags (flags : Flags) : Nat → Reading Flags
  | 0 => return flags
  | fuel + 1 => do
    let c := (← look).getD ')'
    if c = ':' ∨ c = ')' then
      match flags.getLast? with
      -- A negation needs a flag behind it.
      | some (.negation, span) => fail .flagDanglingNegation span
      | _ => return flags
    let span ← spanChar
    let sign ←
      if c = '-' then pure FlagSign.negation
      else
        match GroupFlag.ofChar? c with
        | some f => pure (.flag f)
        | none => fail .flagUnrecognized span
    match flags.find? fun seen => seen.1 = sign with
    | some (.negation, earlier) => fail .flagRepeatedNegation span (some earlier)
    | some (.flag _, earlier) => fail .flagDuplicate span (some earlier)
    | none => pure ()
    if !(← bump) then fail .flagUnexpectedEnd (← spanHere)
    readFlags (flags ++ [(sign, span)]) fuel

/-- The character may stand in a group name, at its beginning or later. -/
def isNameCharacter (first : Bool) (c : Char) : Bool :=
  if first then c == '_' || Text.isLetter c
  else c == '_' || c == '.' || c == '[' || c == ']' || Text.isLetterOrNumber c

/-- The characters of a group name, up to the sign that ends it. -/
def nameCharacters (first : Bool) : Nat → Reading (List Char)
  | 0 => return []
  | fuel + 1 => do
    match ← look with
    | none => return []
    | some '>' => return []
    | some c =>
      if !isNameCharacter first c then fail .groupNameInvalid (← spanChar)
      let _ ← bump
      return c :: (← nameCharacters false fuel)

/-- The name of a group, from behind the sign that opens it on. -/
def readGroupName (fuel : Nat) : Reading Unit := do
  if (← look).isNone then fail .groupNameUnexpectedEnd (← spanHere)
  let start ← place
  let name ← nameCharacters true fuel
  let span ← spanFrom start
  if (← look).isNone then fail .groupNameUnexpectedEnd (← spanHere)
  let _ ← bump
  if name.isEmpty then fail .groupNameEmpty (.point start)
  match (← get).names.find? fun seen => seen.1 = name with
  | some (_, earlier) => fail .groupNameDuplicate span (some earlier)
  | none => modify fun c => { c with names := c.names ++ [(name, span)] }

/-- What a parenthesis opens. -/
inductive Opening where
  /-- Flags for what follows. -/
  | flags (tree : Tree) (ignoreBlank : Option Bool)
  /-- A group. -/
  | group (span : Span) (captures : Bool) (flags : Flags)

/-- The beginning of a group, from its parenthesis on. -/
def readOpening (fuel : Nat) : Reading Opening := do
  let span ← spanChar
  let _ ← bump
  skipBlank
  -- These signs are known, but look-around is not supported.
  for sign in ["?=", "?!", "?<=", "?<!"] do
    if ← bumpIf sign then fail .lookAround (← spanFrom span.start)
  let inner ← spanHere
  let named ← if ← bumpIf "?P<" then pure true else bumpIf "?<"
  if named then
    readGroupName fuel
    return .group span true []
  if ← bumpIf "?" then
    if (← look).isNone then fail .groupUnclosed span
    let flags ← readFlags [] fuel
    let closes := (← look) = some ')'
    let _ ← bump
    if closes then
      -- `(?)` is taken for a repetition of nothing.
      if flags.isEmpty then fail .repetitionMissing inner
      return .flags (.flags ⟨span.start, ← place⟩ flags) (flags.state? .ignoreBlank)
    return .group span false flags
  return .group span true []

/-! ## Patterns -/

/-- One character of a pattern or an escape. -/
def readPrimitive (fuel : Nat) : Reading Tree := do
  let c := (← look).getD 'a'
  if c = '\\' then readEscape fuel
  else
    let span ← spanChar
    let _ ← bump
    match c with
    | '.' => return .dot span
    | '^' => return .assertion span .lineStart
    | '$' => return .assertion span .lineEnd
    | _ => return .literal ⟨span, c, false⟩

/-- The tree of branches, the latest first, and of the parts of the branch behind them, which are the
latest first too. -/
def closeBranches (branches : List Tree) (parts : List Tree) (span : Span) : Tree :=
  let last := Tree.ofParts span parts.reverse
  match branches.getLast? with
  | none => last
  | some first => .alternation ⟨first.span.start, span.stop⟩ (last :: branches).reverse

/-- A pattern or the inside of a group, whose parenthesis was at `opening?`, up to its end: the
branches before, the beginning of the present branch and its parts are given, the latest first. -/
def readBody (opening? : Option Span) (fuel : Nat) (branches : List Tree) (begun : Position)
    (parts : List Tree) : Reading Tree :=
  match fuel with
  | 0 => return closeBranches branches parts ⟨begun, begun⟩
  | fuel + 1 => do
    skipBlank
    let c ← get
    let span ← spanFrom begun
    match c.rest with
    | [] =>
      match opening? with
      | some opening => fail .groupUnclosed opening
      | none => return closeBranches branches parts span
    | ')' :: _ =>
      match opening? with
      | none => fail .groupUnopened (← spanChar)
      | some _ => return closeBranches branches parts span
    | '(' :: _ =>
      match ← readOpening fuel with
      | .flags tree ignoreBlank? =>
        modify fun c => { c with ignoreBlank := ignoreBlank?.getD c.ignoreBlank }
        readBody opening? fuel branches begun (tree :: parts)
      | .group opening captures flags =>
        -- Blanks are ignored up to the end of the group that says so.
        let outside := (← get).ignoreBlank
        modify fun c => { c with ignoreBlank := (flags.state? .ignoreBlank).getD outside }
        let sub ← readBody (some opening) fuel [] (← place) []
        modify fun c => { c with ignoreBlank := outside }
        let _ ← bump
        let group := Tree.group (← spanFrom opening.start) captures flags sub
        readBody opening? fuel branches begun (group :: parts)
    | '|' :: _ =>
      let branch := Tree.ofParts span parts.reverse
      let _ ← bump
      readBody opening? fuel (branch :: branches) (← place) []
    | '[' :: _ => do
      let t ← readClass fuel
      readBody opening? fuel branches begun (t :: parts)
    | '?' :: _ => do readBody opening? fuel branches begun (← readRepetition parts 0 (some 1))
    | '*' :: _ => do readBody opening? fuel branches begun (← readRepetition parts 0 none)
    | '+' :: _ => do readBody opening? fuel branches begun (← readRepetition parts 1 none)
    | '\x7b' :: _ => do readBody opening? fuel branches begun (← readCounted parts fuel)
    | _ => do
      let t ← readPrimitive fuel
      readBody opening? fuel branches begun (t :: parts)

/-- The tree of a pattern, or the first fault in it. -/
def Tree.parse (pattern : String) : Except Fault Tree := do
  let start := Cursor.first pattern
  let (tree, _) ← (readBody none (start.rest.length + 1) [] start.place []).run start
  tree.checkNesting 0
  return tree

end HotComponents.Pattern
