import Crosscheck.Text.Quoted
/-!
# Records in text

How a record is shown with its parts: the name of its kind, then the parts in parentheses or, with their
names, in braces.
-/

namespace Crosscheck.Text

/-- A name followed by a quoted text in parentheses. -/
def tagged (name s : Text) : Text := name ++ '(' :: quoted s ++ [')']

/-- A name followed by named parts in braces. -/
def withParts (name : Text) (parts : List (Text × Text)) : Text :=
  name ++ " \x7b " ++ join ", " (parts.map fun (k, v) => k ++ ": " ++ v) ++ " \x7d"

/-- Items in brackets. -/
def bracketed (items : List Text) : Text := '[' :: join ", " items ++ [']']

/-- A part that may be missing. -/
def optional : Option Text → Text
  | none => "None"
  | some s => "Some(" ++ s ++ ")"

end Crosscheck.Text
