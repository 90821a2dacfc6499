import Crosscheck.Text.Basic
/-!
# Lines

Two ways to see a text as lines. `splitLines` cuts at every newline and keeps what follows the last
one, so a trailing empty line has a number of its own. `lines` is the reader's view: a final newline
ends the last line instead of opening another, and a carriage return before a newline belongs to
the line break.
-/

namespace Crosscheck.Text

/-- Cut at every newline; never an empty list. -/
def splitLines (s : Text) : List Text := splitWhen (· = '\n') s

/-- Join with newlines; undoes `splitLines`. -/
def joinLines (ls : List Text) : Text := join ['\n'] ls

/-- The text with these lines. -/
def ofLines (ls : List String) : Text := joinLines (ls.map String.toList)

/-- Drop one carriage return at the end. -/
def dropReturn (s : Text) : Text := if s.getLast? = some '\r' then s.dropLast else s

/-- The lines of a text as a reader counts them. -/
def lines (s : Text) : List Text :=
  match (splitLines s).reverse with
  | [] => []
  | last :: earlier =>
    let ended := earlier.reverse.map dropReturn
    if last.isEmpty then ended else ended ++ [last]

end Crosscheck.Text
