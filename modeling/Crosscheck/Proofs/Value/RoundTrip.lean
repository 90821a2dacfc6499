import Crosscheck.Proofs.Json.RoundTrip
import Crosscheck.Proofs.Json.WellFormed
import Crosscheck.Proofs.Value.Comparison
import Crosscheck.Proofs.Value.Structure
/-!
# Values through JSON text

A value that was read from JSON text is read back from the text in which it is written. Reading makes no
double of 64-bit integers and loses no fields, and canonicalization leaves alone what it made before.
-/

namespace Crosscheck.Value

open Json (Number)

mutual

theorem depth_toJson : ∀ j : Json, (ofJson j).toJson.depth = j.depth
  | .null | .bool _ | .string _ => rfl
  | .number n => by
      rw [ofJson]
      rcases ofNumber_shape n with ⟨i, hi⟩ | ⟨d, hd⟩
      · rw [hi]
        rfl
      · rw [hd]
        rfl
  | .array items => congrArg (· + 1) (depthOfItems_itemsToJson items)
  | .object fields => congrArg (· + 1) (depthOfFields_fieldsToJson fields)

theorem depthOfItems_itemsToJson : ∀ items : List Json,
    Json.depthOfItems (itemsToJson (ofItems items)) = Json.depthOfItems items
  | [] => rfl
  | v :: vs => congrArg₂ max (depth_toJson v) (depthOfItems_itemsToJson vs)

theorem depthOfFields_fieldsToJson : ∀ fields : List (Text × Json),
    Json.depthOfFields (fieldsToJson (ofFields fields)) = Json.depthOfFields fields
  | [] => rfl
  | (_, v) :: rest => congrArg₂ max (depth_toJson v) (depthOfFields_fieldsToJson rest)

end

/-- What was read as a value is, once it is written, read as an equal value. The doubles in it have to be
read back one by one. -/
theorem read?_write_toJson {s : Text} {j : Json} (hread : Json.read? s = some j)
    (hprinted : ∀ d, Number.double d ∈ (ofJson j).toJson.numbers →
      Json.read? (Json.writeDouble d) = some (.number (.double d))) :
    ∃ k, Json.read? (Json.write (ofJson j).toJson) = some k ∧ ofJson k = ofJson j ∧
      (ofJson k).equals (ofJson j) := by
  obtain ⟨hwell, hdepth⟩ := Json.wellFormed_of_read? hread
  have hjson := wellFormed_toJson hwell
  have hrereads : Json.Rereads (ofJson j).toJson.numbers := by
    intro n hn
    cases n with
    | integer i => exact Json.read?_integer (Json.wellFormed_of_mem_numbers hjson _ hn)
    | double d => exact hprinted d hn
  have hback := Json.read?_write hjson (by rwa [depth_toJson]) hrereads
  have hsame : ofJson (ofJson j).toJson = ofJson j := ofJson_toJson (canonical_ofJson j)
  refine ⟨_, hback, hsame, ?_⟩
  rw [hsame]
  exact equals_self hjson

private def twoPointFive : Double := .finite false ⟨5629499534213120, -51, by decide⟩

private def nestedText : Text := "\x7b\"b\": [7.0, 2.5], \"a\\n\": \"\\u00e9\"\x7d"

private def nestedObject : Json := .object [("a\n".toList, .string "é".toList),
  ("b".toList, .array [.number (.double (.finite false ⟨7881299347898368, -50, by decide⟩)),
    .number (.double twoPointFive)])]

theorem read?_write_toJson_nested : Json.read? nestedText = some nestedObject ∧
    ∃ k, Json.read? (Json.write (ofJson nestedObject).toJson) = some k ∧
      ofJson k = ofJson nestedObject ∧ (ofJson k).equals (ofJson nestedObject) := by
  have hform : Json.Form.read? nestedText = some (.object
      [(some "b".toList, .array [.number ⟨false, ['7'], some ['0'], none⟩,
        .number ⟨false, ['2'], some ['5'], none⟩]),
      (some "a\n".toList, .string (some "é".toList))]) := by decide +kernel
  have hseven : Json.Numeral.value? ⟨false, ['7'], some ['0'], none⟩ =
      some (.double (.finite false ⟨7881299347898368, -50, by decide⟩)) := by decide +kernel
  have hhalf : Json.Numeral.value? ⟨false, ['2'], some ['5'], none⟩ = some (.double twoPointFive) := by
    decide +kernel
  have hread : Json.read? nestedText = some nestedObject := by
    rw [Json.read?, hform]
    simp [Json.Form.value?, Json.Form.depth, Json.Form.depthOfFields, Json.Form.depthOfItems,
      Json.Form.maxDepth, Json.Form.toJson?, Json.Form.fieldsToJson?, Json.Form.itemsToJson?, hseven, hhalf,
      Json.insertField, Text.precedes, nestedObject]
  have hfold : ofDouble (.finite false ⟨7881299347898368, -50, by decide⟩) = .integer 7 := by
    rfl
  have hleft : ofDouble twoPointFive = .float twoPointFive := by rfl
  refine ⟨hread, read?_write_toJson hread ?_⟩
  intro d hd
  obtain rfl : d = twoPointFive := by
    simpa [nestedObject, ofJson, ofFields, ofItems, ofNumber, hfold, hleft, toJson, fieldsToJson,
      itemsToJson, Json.numbers, Json.fieldNumbers, Json.itemNumbers] using hd
  have htext : Json.writeDouble twoPointFive = "2.5".toList := by decide +kernel
  rw [htext]
  exact Json.read?_of_readNumeral (by rfl) hhalf

end Crosscheck.Value
