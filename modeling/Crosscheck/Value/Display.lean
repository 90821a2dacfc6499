import Crosscheck.Value.Basic
import Crosscheck.Number.Decimal
import Crosscheck.Text.Quoted
/-!
# Showing values

The text in which a report shows a value: `nil` for null, strings quoted, brackets around sequences
and mappings, a colon alone for the mapping without fields, and doubles with their shortest digits
around the point, never by powers of ten.
-/

namespace Crosscheck.Value

mutual

/-- The text of a value in a report. -/
def display : Value → Text
  | .null => "nil"
  | .bool b => if b then "true" else "false"
  | .integer i => Text.ofInt i
  | .float d => d.textBy Decimal.positional
  | .string s => Text.quoted s
  | .sequence items => '[' :: displayItems items ++ [']']
  | .mapping [] => "[:]"
  | .mapping (f :: fields) => '[' :: displayFields (f :: fields) ++ [']']

def displayItems : List Value → Text
  | [] => []
  | [v] => display v
  | v :: vs => display v ++ [',', ' '] ++ displayItems vs

def displayFields : List (Text × Value) → Text
  | [] => []
  | [(k, v)] => Text.quoted k ++ [':', ' '] ++ display v
  | (k, v) :: rest => Text.quoted k ++ [':', ' '] ++ display v ++ [',', ' '] ++ displayFields rest

end

end Crosscheck.Value
