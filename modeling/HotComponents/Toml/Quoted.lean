import HotComponents.Toml.Number

/-!
# Strings

A string stands between quotes, single or double, or between three of them if it may have several
lines. Escapes mean something between double quotes only. A line end inside a string is a line feed,
however it is written.
-/

namespace HotComponents.Toml

open Reading

/-! ## Escapes -/

/-- A character by its number, in so many hexadecimal digits. -/
def byNumber (width : Nat) : Reading Char := do
  let found ← upTo (one (isDigitOf 16)) width
  guard (found.length = width)
  match Text.scalar? (Text.digitsValue 16 found) with
  | some c => return c
  | none => failure

/-- The character that an escape stands for. -/
def escape : Reading Char := do
  exactly "\\"
  match ← one fun _ => true with
  | 'b' => return '\x08'
  | 't' => return '\t'
  | 'n' => return '\n'
  | 'f' => return '\x0C'
  | 'r' => return '\r'
  | '"' => return '"'
  | '\\' => return '\\'
  | 'u' => byNumber 4
  | 'U' => byNumber 8
  | _ => failure

/-- A line end behind a backslash, and all blanks and line ends after it: they stand for nothing. -/
def escapedNewline : Reading Unit := do
  exactly "\\"
  blanks
  newline
  let _ ← many (newline <|> do let _ ← run1 fun c => c == ' ' || c == '\t')

/-! ## Strings of one line -/

/-- A string between double quotes. -/
def basicString : Reading (List Char) := do
  exactly "\""
  let parts ← many <|
    run1 (fun c => isPlain c && c != '"' && c != '\\') <|> List.singleton <$> escape
  exactly "\""
  return parts.flatten

/-- A string between single quotes. -/
def literalString : Reading (List Char) := do
  exactly "'"
  let text ← run fun c => isPlain c && c != '\''
  exactly "'"
  return text

/-! ## Strings of several lines -/

/-- One or two quotes inside a string of several lines. -/
def innerQuotes (quote : Char) : Reading (List Char) := do
  let quotes ← run1 (· == quote)
  guard (quotes.length < 3)
  return quotes

/-- The quotes that end a string of several lines, and those before them that belong to it. -/
def closingQuotes (quote : Char) : Reading (List Char) := do
  let quotes ← run1 (· == quote)
  guard (3 ≤ quotes.length && quotes.length ≤ 5)
  return quotes.drop 3

/-- A string of several lines with given parts. A line end right behind the opening quotes is not
part of it. -/
def severalLines (quote : Char) (part : Reading (List Char)) : Reading (List Char) := do
  exactly (String.ofList [quote, quote, quote])
  let _ ← optional newline
  let parts ← many (part <|> innerQuotes quote)
  return parts.flatten ++ (← closingQuotes quote)

/-- A string of several lines between double quotes. -/
def basicLines : Reading (List Char) :=
  severalLines '"' <|
    run1 (fun c => isPlain c && c != '"' && c != '\\') <|>
      (do escapedNewline; return []) <|>
      List.singleton <$> escape <|>
      (do newline; return ['\n'])

/-- A string of several lines between single quotes. -/
def literalLines : Reading (List Char) :=
  severalLines '\'' <|
    run1 (fun c => isPlain c && c != '\'') <|> (do newline; return ['\n'])

/-- A string. -/
def anyString : Reading String :=
  String.ofList <$> (basicLines <|> basicString <|> literalLines <|> literalString)

end HotComponents.Toml
