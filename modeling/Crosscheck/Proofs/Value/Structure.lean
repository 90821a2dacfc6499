import Crosscheck.Proofs.Value.Canonical
/-!
# Values in canonical form

The numbers of a canonical form are in the form that canonicalization gives them, so making it again from
the JSON of the value changes nothing. What a finite JSON value becomes is equal to itself.
-/

namespace Crosscheck.Value

open Json (Number)

mutual

/-- Every number has the form that canonicalization gives it. Doubles that are not finite have it too. -/
def Canonical : Value → Prop
  | .integer i => minInteger ≤ i ∧ i ≤ maxInteger
  | .float d => ofDouble d = .float d
  | .sequence items => ItemsCanonical items
  | .mapping fields => FieldsCanonical fields
  | _ => True

def ItemsCanonical : List Value → Prop
  | [] => True
  | v :: vs => v.Canonical ∧ ItemsCanonical vs

def FieldsCanonical : List (Text × Value) → Prop
  | [] => True
  | (_, v) :: rest => v.Canonical ∧ FieldsCanonical rest

end

theorem canonical_ofDouble (d : Double) : (ofDouble d).Canonical := by
  by_cases hrange : ∃ i, d.toInt? = some i ∧ minInteger ≤ i ∧ i ≤ maxInteger + 1
  · obtain ⟨i, hint, hrange⟩ := hrange
    have hof : ofDouble d = .integer (min i maxInteger) := by
      simp only [ofDouble, hint, if_pos hrange]
    rw [hof]
    simp only [Canonical, minInteger, maxInteger] at hrange ⊢
    omega
  · have hof : ofDouble d = .float d := by
      cases hint : d.toInt? with
      | none => simp only [ofDouble, hint]
      | some i =>
          have hout : ¬ (minInteger ≤ i ∧ i ≤ maxInteger + 1) := fun h => hrange ⟨i, hint, h⟩
          simp only [ofDouble, hint, if_neg hout]
    rw [hof]
    exact hof

theorem canonical_ofNumber (n : Number) : (ofNumber n).Canonical := by
  cases n with
  | double d => exact canonical_ofDouble d
  | integer i =>
      rw [ofNumber]
      split
      · next hrange => exact hrange
      · exact canonical_ofDouble _

mutual

theorem canonical_ofJson : ∀ j : Json, (ofJson j).Canonical
  | .null | .bool _ | .string _ => trivial
  | .number n => canonical_ofNumber n
  | .array items => itemsCanonical_ofItems items
  | .object fields => fieldsCanonical_ofFields fields

theorem itemsCanonical_ofItems : ∀ items : List Json, ItemsCanonical (ofItems items)
  | [] => trivial
  | v :: vs => ⟨canonical_ofJson v, itemsCanonical_ofItems vs⟩

theorem fieldsCanonical_ofFields : ∀ fields : List (Text × Json), FieldsCanonical (ofFields fields)
  | [] => trivial
  | (_, v) :: rest => ⟨canonical_ofJson v, fieldsCanonical_ofFields rest⟩

end

mutual

theorem ofJson_toJson : ∀ {v : Value}, v.Canonical → ofJson v.toJson = v
  | .null, _ | .bool _, _ | .string _, _ => rfl
  | .integer _, hrange => if_pos hrange
  | .float _, hkept => hkept
  | .sequence _, hitems => congrArg Value.sequence (ofItems_itemsToJson hitems)
  | .mapping _, hfields => congrArg Value.mapping (ofFields_fieldsToJson hfields)

theorem ofItems_itemsToJson : ∀ {items : List Value}, ItemsCanonical items →
    ofItems (itemsToJson items) = items
  | [], _ => rfl
  | _ :: _, ⟨hv, hvs⟩ => congrArg₂ List.cons (ofJson_toJson hv) (ofItems_itemsToJson hvs)

theorem ofFields_fieldsToJson : ∀ {fields : List (Text × Value)}, FieldsCanonical fields →
    ofFields (fieldsToJson fields) = fields
  | [], _ => rfl
  | (k, _) :: _, ⟨hv, hrest⟩ =>
      congrArg₂ List.cons (congrArg (Prod.mk k) (ofJson_toJson hv)) (ofFields_fieldsToJson hrest)

end

/-! ## The JSON of a canonical form -/

theorem wellFormed_of_isNumeral {v : Value} (h : v.IsNumeral) : v.toJson.WellFormed := by
  cases v with
  | integer i =>
      obtain ⟨hlow, hhigh⟩ := h
      refine ⟨hlow, ?_⟩
      simp only [maxInteger] at hhigh
      omega
  | float d => exact h.1
  | _ => cases h

theorem keys_fieldsToJson : ∀ fields : List (Text × Json),
    (fieldsToJson (ofFields fields)).map Prod.fst = fields.map Prod.fst
  | [] => rfl
  | (k, _) :: rest => congrArg (k :: ·) (keys_fieldsToJson rest)

mutual

theorem wellFormed_toJson : ∀ {j : Json}, j.WellFormed → (ofJson j).toJson.WellFormed
  | .null, _ | .bool _, _ | .string _, _ => trivial
  | .number _, hn => wellFormed_of_isNumeral (ofNumber_spec hn).1
  | .array _, hitems => wellFormed_itemsToJson hitems
  | .object fields, ⟨hasc, hfields⟩ =>
      ⟨hasc.of_keys (keys_fieldsToJson fields), wellFormed_fieldsToJson hfields⟩

theorem wellFormed_itemsToJson : ∀ {items : List Json}, Json.ItemsWellFormed items →
    Json.ItemsWellFormed (itemsToJson (ofItems items))
  | [], _ => trivial
  | _ :: _, ⟨hv, hvs⟩ => ⟨wellFormed_toJson hv, wellFormed_itemsToJson hvs⟩

theorem wellFormed_fieldsToJson : ∀ {fields : List (Text × Json)}, Json.FieldsWellFormed fields →
    Json.FieldsWellFormed (fieldsToJson (ofFields fields))
  | [], _ => trivial
  | (_, _) :: _, ⟨hv, hrest⟩ => ⟨wellFormed_toJson hv, wellFormed_fieldsToJson hrest⟩

end

mutual

theorem equals_self : ∀ {v : Value}, v.toJson.WellFormed → v.equals v
  | .null, _ => rfl
  | .bool b, _ => beq_self_eq_true b
  | .integer i, _ => beq_self_eq_true i
  | .float _, hd => (Double.equals_iff hd hd).mpr rfl
  | .string s, _ => beq_self_eq_true s
  | .sequence _, hitems => equalItems_self hitems
  | .mapping _, hfields => equalFields_self hfields.2

theorem equalItems_self : ∀ {items : List Value}, Json.ItemsWellFormed (itemsToJson items) →
    equalItems items items
  | [], _ => rfl
  | _ :: _, ⟨hv, hvs⟩ => Bool.and_eq_true_iff.mpr ⟨equals_self hv, equalItems_self hvs⟩

theorem equalFields_self : ∀ {fields : List (Text × Value)},
    Json.FieldsWellFormed (fieldsToJson fields) → equalFields fields fields
  | [], _ => rfl
  | (k, _) :: _, ⟨hv, hrest⟩ => by
      simp only [equalFields, beq_self_eq_true, Bool.true_and, Bool.and_eq_true]
      exact ⟨equals_self hv, equalFields_self hrest⟩

end

end Crosscheck.Value
