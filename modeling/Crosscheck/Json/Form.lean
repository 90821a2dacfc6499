import Crosscheck.Json.Numeral
/-!
# JSON as written

What a JSON text says before it is given a value: numbers as numerals, the fields of an object in
the order in which they stand, a key as often as it is repeated. A string whose escapes leave half
of a surrogate pair has no content. Giving it a value can fail, because numbers have a range,
strings need content and a value may be nested 127 deep at most.
-/

namespace Crosscheck.Json

/-- A JSON text as it is written. -/
inductive Form
  | null
  | bool (b : Bool)
  | number (n : Numeral)
  | string (content : Option Text)
  | array (items : List Form)
  | object (fields : List (Option Text × Form))

instance : Inhabited Form := ⟨.null⟩

namespace Form

mutual

/-- How many arrays and objects stand around the innermost part. -/
def depth : Form → Nat
  | .array items => depthOfItems items + 1
  | .object fields => depthOfFields fields + 1
  | _ => 0

def depthOfItems : List Form → Nat
  | [] => 0
  | x :: xs => max (depth x) (depthOfItems xs)

def depthOfFields : List (Option Text × Form) → Nat
  | [] => 0
  | (_, x) :: xs => max (depth x) (depthOfFields xs)

end

/-- The greatest depth of a value. -/
def maxDepth : Nat := 127

mutual

/-- The value, whatever its depth. -/
def toJson? : Form → Option Json
  | .null => some .null
  | .bool b => some (.bool b)
  | .number n => n.value?.map .number
  | .string content => content.map .string
  | .array items => (itemsToJson? items).map .array
  | .object fields => (fieldsToJson? [] fields).map .object

def itemsToJson? : List Form → Option (List Json)
  | [] => some []
  | x :: xs =>
    match toJson? x with
    | some v => (itemsToJson? xs).map (v :: ·)
    | none => none

/-- Of fields with one key the last one counts. -/
def fieldsToJson? (sofar : List (Text × Json)) : List (Option Text × Form) →
    Option (List (Text × Json))
  | [] => some sofar
  | (key, x) :: xs =>
    match key, toJson? x with
    | some k, some v => fieldsToJson? (insertField k v sofar) xs
    | _, _ => none

end

/-- The value, if its depth allows one. -/
def value? (f : Form) : Option Json := if f.depth ≤ maxDepth then f.toJson? else none

end Form

end Crosscheck.Json
