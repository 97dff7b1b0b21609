import HotComponents.Text.Percent
import HotComponents.Text.Split

/-!
# Form-encoded pairs

The `application/x-www-form-urlencoded` reading of a query: pieces between `&`, empty pieces
skipped, cut at the first `=`; in a key or a value `+` is a space and percent escapes are read.

* `formPairs_append`: a piece put after an `&` adds its own pairs after those before it.
-/

namespace HotComponents.Text

/-- A key or a value as it reads: `+` for a space, escapes read, the octets read as UTF-8. -/
def formText (cs : List Char) : List Char :=
  percentDecode (cs.map fun c => if c = '+' then ' ' else c)

/-- The key and value of one piece; without `=` the value is empty. -/
def formPair (piece : List Char) : List Char × List Char :=
  let (key, value) := (splitFirst? '=' piece).getD (piece, [])
  (formText key, formText value)

/-- The pairs of a query, in order. -/
def formPairs (query : List Char) : List (List Char × List Char) :=
  ((splitOn '&' query).filter fun piece => !piece.isEmpty).map formPair

theorem splitOn_append_sep (sep : Char) (a b : List Char) :
    splitOn sep (a ++ sep :: b) = splitOn sep a ++ splitOn sep b := by
  induction a with
  | nil => simp [splitOn]
  | cons c cs ih =>
    simp only [List.cons_append, splitOn, ih]
    split
    · rfl
    · cases h : splitOn sep cs with
      | nil => exact absurd h (splitOn_ne_nil sep cs)
      | cons p ps => simp

/-- A piece put after an `&` adds its own pairs after those before it. -/
theorem formPairs_append (a b : List Char) :
    formPairs (a ++ '&' :: b) = formPairs a ++ formPairs b := by
  simp [formPairs, splitOn_append_sep]

end HotComponents.Text
