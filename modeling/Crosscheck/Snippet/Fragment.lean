import Crosscheck.Text.Lines
/-!
# Fragments

A fragment is a run of lines taken from a file: preamble lines first, then the snippet itself, together
with the place in the file where the snippet starts.
-/

namespace Crosscheck

/-- Lines taken from a file. -/
structure Fragment where
  /-- The file that the lines were read from. -/
  path : Text
  /-- The number of the first snippet line, counting from one. -/
  firstLine : Nat
  /-- How many of the lines stand before the snippet. -/
  preambleLength : Nat
  /-- Preamble lines followed by snippet lines. -/
  lines : List Text
deriving DecidableEq

namespace Fragment

/-- The lines as one text. -/
def text (f : Fragment) : Text := Text.joinLines f.lines

/-- The snippet lines. -/
def body (f : Fragment) : List Text := f.lines.drop f.preambleLength

/-- The fragment with more lines in front, which count as preamble. -/
def withLeadingLines (f : Fragment) (leading : List Text) : Fragment :=
  { f with preambleLength := f.preambleLength + leading.length, lines := leading ++ f.lines }

end Fragment

end Crosscheck
