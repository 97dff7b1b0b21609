/-!
# The journal

Everything a session has to say, entry by entry. An entry goes out under a channel, and some entries
only in a verbose session. An entry is one line: the channel in brackets, bold and coloured, and the
message; a message of several lines has the channel before its first line only.

* `render_append`: journals are rendered entry by entry.
-/

namespace HotComponents

/-- Something a session says. -/
structure Entry where
  /-- The channel, shown in brackets. -/
  channel : String
  /-- What is said. -/
  message : String
  /-- The entry goes out only in a verbose session. -/
  verboseOnly : Bool
deriving DecidableEq, Repr, Inhabited

namespace Entry

/-- An entry that always goes out. -/
def note (channel message : String) : Entry := ⟨channel, message, false⟩

/-- An entry for verbose sessions. -/
def detail (channel message : String) : Entry := ⟨channel, message, true⟩

/-- A control sequence of the terminal that chooses how text is shown. -/
def style (code : String) : String := "\x1b[" ++ code ++ "m"

/-- The colour of a channel, whatever the case of its ASCII letters: one each for updates,
compiles, errors and warnings, bright yellow for all others. -/
def colour (channel : String) : String :=
  let name := channel.map Char.toLower
  if name = "hmr" then "92"
  else if name = "compile" then "94"
  else if name = "error" then "91"
  else if name = "warn" ∨ name = "warning" then "33"
  else "93"

/-- The line of an entry. -/
def line (e : Entry) : String :=
  style "1" ++ style (colour e.channel) ++ "[" ++ e.channel ++ "]" ++ style "39" ++ style "0" ++
    " " ++ e.message ++ "\n"

/-- The entry goes out in a session that is verbose or not. -/
def shown (verbose : Bool) (e : Entry) : Bool := verbose || !e.verboseOnly

end Entry

/-- The entries of a session, in order. -/
abbrev Journal := List Entry

namespace Journal

/-- What is written out for a journal. -/
def render (verbose : Bool) (j : Journal) : String :=
  String.join ((j.filter (Entry.shown verbose)).map Entry.line)

theorem render_append (verbose : Bool) (j more : Journal) :
    render verbose (j ++ more) = render verbose j ++ render verbose more := by
  simp [render]

end Journal

end HotComponents
