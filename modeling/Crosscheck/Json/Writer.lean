import Crosscheck.Json.Basic
import Crosscheck.Number.Decimal
/-!
# Writing JSON

Compact JSON text: no space between tokens, fields in the order of their keys, and only the quote, the
backslash and control characters escaped. Doubles are written with their shortest digits; one that is
not finite becomes `null`.
-/

namespace Crosscheck.Json

/-- A number of two hexadecimal digits. -/
def hex2 (n : Nat) : Text := if n < 16 then '0' :: Text.hex n else Text.hex n

/-- One character as it stands in a JSON string. -/
def escapeChar (c : Char) : Text :=
  if c = '"' then ['\\', '"']
  else if c = '\\' then ['\\', '\\']
  else if c = '\n' then ['\\', 'n']
  else if c = '\r' then ['\\', 'r']
  else if c = '\t' then ['\\', 't']
  else if c = '\x08' then ['\\', 'b']
  else if c = '\x0c' then ['\\', 'f']
  else if c.toNat < 32 then ['\\', 'u', '0', '0'] ++ hex2 c.toNat
  else [c]

/-- A JSON string. -/
def writeString (s : Text) : Text := '"' :: s.flatMap escapeChar ++ ['"']

/-- A double as JSON. -/
def writeDouble : Double → Text
  | .finite s x => (Double.finite s x).textBy Decimal.balanced
  | _ => "null"

/-- A number as JSON. -/
def writeNumber : Number → Text
  | .integer i => Text.ofInt i
  | .double d => writeDouble d

mutual

/-- A value as compact JSON text. -/
def write : Json → Text
  | .null => "null"
  | .bool b => if b then "true" else "false"
  | .number n => writeNumber n
  | .string s => writeString s
  | .array items => '[' :: writeItems items ++ [']']
  | .object fields => '\x7b' :: writeFields fields ++ ['\x7d']

def writeItems : List Json → Text
  | [] => []
  | [v] => write v
  | v :: vs => write v ++ ',' :: writeItems vs

def writeFields : List (Text × Json) → Text
  | [] => []
  | [(k, v)] => writeString k ++ ':' :: write v
  | (k, v) :: rest => writeString k ++ ':' :: write v ++ ',' :: writeFields rest

end

end Crosscheck.Json
