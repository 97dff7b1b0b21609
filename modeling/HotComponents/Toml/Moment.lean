import HotComponents.Toml.Number

/-!
# Dates and times

A date, a time of day, or both, and then perhaps an offset. Days are those of the calendar; a minute
may have a second more.

* `daysIn_le`: no month has more than 31 days.
-/

namespace HotComponents.Toml

open Reading

/-- The year has a day more. -/
def isLeap (year : Nat) : Bool := year % 4 == 0 && (year % 100 != 0 || year % 400 == 0)

/-- The number of days in a month. -/
def daysIn (year month : Nat) : Nat :=
  if month = 2 then (if isLeap year then 29 else 28)
  else if month = 4 ∨ month = 6 ∨ month = 9 ∨ month = 11 then 30
  else 31

theorem daysIn_le (year month : Nat) : daysIn year month ≤ 31 := by
  unfold daysIn
  split
  · split <;> omega
  · split <;> omega

/-- A number of so many digits. -/
def fixed : Nat → Reading (List Char)
  | 0 => return []
  | n + 1 => do return (← one Char.isDigit) :: (← fixed n)

/-- A number of two digits between two others. -/
def between (low high : Nat) : Reading Nat := do
  let n := Text.digitsValue 10 (← fixed 2)
  guard (low ≤ n && n ≤ high)
  return n

/-- A date of the calendar. -/
def date : Reading Unit := do
  let year := Text.digitsValue 10 (← fixed 4)
  exactly "-"
  let month ← between 1 12
  exactly "-"
  let _ ← between 1 (daysIn year month)

/-- An hour and a minute. -/
def hourAndMinute : Reading Unit := do
  let _ ← between 0 23
  exactly ":"
  let _ ← between 0 59

/-- A time of day, to any fraction of a second. -/
def time : Reading Unit := do
  hourAndMinute
  exactly ":"
  let _ ← between 0 60
  let _ ← optional do
    exactly "."
    run1 Char.isDigit

/-- How far a time is from the universal one. -/
def offset : Reading Unit :=
  (do let _ ← one fun c => c == 'Z' || c == 'z') <|> do
    let _ ← one fun c => c == '+' || c == '-'
    hourAndMinute

/-- A date, a time or both; only both can have an offset. -/
def moment : Reading Unit :=
  (do
    date
    let _ ← optional do
      let _ ← one fun c => c == 'T' || c == 't' || c == ' '
      time
      let _ ← optional offset) <|> time

end HotComponents.Toml
