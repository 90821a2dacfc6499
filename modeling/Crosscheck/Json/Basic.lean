import Crosscheck.Text.Basic
import Crosscheck.Number.Double
/-!
# JSON values

A value knows whether a number is an integer of 64 bits or a double, and keeps the fields of an
object in ascending order of their keys, each key once.
-/

namespace Crosscheck

/-- A number is a signed or unsigned integer of 64 bits, or else a double. -/
inductive Json.Number
  | integer (i : Int)
  | double (d : Double)
deriving DecidableEq

/-- A JSON value. -/
inductive Json
  | null
  | bool (b : Bool)
  | number (n : Json.Number)
  | string (s : Text)
  | array (items : List Json)
  | object (fields : List (Text × Json))

namespace Json

instance : Inhabited Json := ⟨.null⟩

/-- Put a field in its place; a field of the same key gives way. -/
def insertField {α : Type} (key : Text) (value : α) : List (Text × α) → List (Text × α)
  | [] => [(key, value)]
  | (k, v) :: rest =>
    if k = key then (key, value) :: rest
    else if Text.precedes key k then (key, value) :: (k, v) :: rest
    else (k, v) :: insertField key value rest

/-- The value of a field. -/
def field? (key : Text) (fields : List (Text × Json)) : Option Json := fields.lookup key

end Json

end Crosscheck
