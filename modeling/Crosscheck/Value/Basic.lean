import Crosscheck.Json.Basic
import Crosscheck.Number.Double
/-!
# Comparable values

What two programs computed can be compared once it is freed of number widths: a whole number is an
integer of 64 bits whatever it was written as, and only other numbers stay doubles. A number that is
not one differs from everything, itself included.
-/

namespace Crosscheck

/-- A value that two programs can agree on. -/
inductive Value
  | null
  | bool (b : Bool)
  | integer (i : Int)
  | float (d : Double)
  | string (s : Text)
  | sequence (items : List Value)
  | mapping (fields : List (Text × Value))

namespace Value

instance : Inhabited Value := ⟨.null⟩

/-- The least integer of 64 bits. -/
def minInteger : Int := -9223372036854775808

/-- The greatest integer of 64 bits. -/
def maxInteger : Int := 9223372036854775807

/-- A double without fraction from `-2 ^ 63` to `2 ^ 63` becomes the integer it is equal to, and
`2 ^ 63` itself the greatest integer. -/
def ofDouble (d : Double) : Value :=
  match d.toInt? with
  | some i => if minInteger ≤ i ∧ i ≤ maxInteger + 1 then .integer (min i maxInteger) else .float d
  | none => .float d

/-- An integer in range is kept; any other number counts as a double. -/
def ofNumber : Json.Number → Value
  | .integer i =>
    if minInteger ≤ i ∧ i ≤ maxInteger then .integer i else ofDouble (Double.ofInt i)
  | .double d => ofDouble d

mutual

/-- The comparable form of a JSON value. -/
def ofJson : Json → Value
  | .null => .null
  | .bool b => .bool b
  | .number n => ofNumber n
  | .string s => .string s
  | .array items => .sequence (ofItems items)
  | .object fields => .mapping (ofFields fields)

def ofItems : List Json → List Value
  | [] => []
  | v :: vs => ofJson v :: ofItems vs

def ofFields : List (Text × Json) → List (Text × Value)
  | [] => []
  | (k, v) :: rest => (k, ofJson v) :: ofFields rest

end

mutual

/-- Equality of values; doubles are compared as numbers. -/
def equals : Value → Value → Bool
  | .null, .null => true
  | .bool a, .bool b => a == b
  | .integer i, .integer j => i == j
  | .float d, .float e => d.equals e
  | .string s, .string t => s == t
  | .sequence xs, .sequence ys => equalItems xs ys
  | .mapping xs, .mapping ys => equalFields xs ys
  | _, _ => false

def equalItems : List Value → List Value → Bool
  | [], [] => true
  | x :: xs, y :: ys => equals x y && equalItems xs ys
  | _, _ => false

def equalFields : List (Text × Value) → List (Text × Value) → Bool
  | [], [] => true
  | (k, x) :: xs, (l, y) :: ys => k == l && equals x y && equalFields xs ys
  | _, _ => false

end

/-- Whether the value is null. -/
def isNull : Value → Bool
  | .null => true
  | _ => false

/-- The text of a string. -/
def text? : Value → Option Text
  | .string s => some s
  | _ => none

mutual

/-- The value as JSON. -/
def toJson : Value → Json
  | .null => .null
  | .bool b => .bool b
  | .integer i => .number (.integer i)
  | .float d => .number (.double d)
  | .string s => .string s
  | .sequence items => .array (itemsToJson items)
  | .mapping fields => .object (fieldsToJson fields)

def itemsToJson : List Value → List Json
  | [] => []
  | v :: vs => toJson v :: itemsToJson vs

def fieldsToJson : List (Text × Value) → List (Text × Json)
  | [] => []
  | (k, v) :: rest => (k, toJson v) :: fieldsToJson rest

end

end Value

end Crosscheck
