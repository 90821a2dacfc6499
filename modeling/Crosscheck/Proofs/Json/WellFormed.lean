import Crosscheck.Proofs.Json.RoundTrip
/-!
# What a value that was read is like

Numbers are of 64 bits, the fields of every object are in order, and no value is nested too deeply.
-/

namespace Crosscheck

namespace Json

/-! ## Numbers -/

theorem Numeral.finite_of_double? {n : Numeral} {d : Double} (h : n.double? = some d) : d.IsFinite := by
  simp only [Numeral.double?] at h
  split at h
  · obtain ⟨x, -, rfl⟩ := Option.map_eq_some_iff.mp h
    exact ⟨_, x, rfl⟩
  · cases h

theorem Numeral.range_of_integer? {n : Numeral} {i : Int} (h : n.integer? = some i) :
    Number.WellFormed (.integer i) := by
  simp only [Numeral.integer?] at h
  split at h
  · cases h
  split at h
  · split at h
    · obtain rfl := Option.some.inj h
      simp only [Number.WellFormed, Value.minInteger]
      omega
    · cases h
  · split at h
    · next hle =>
      obtain rfl := Option.some.inj h
      simp only [Numeral.maxSignificand] at hle
      simp only [Number.WellFormed, Value.minInteger]
      omega
    · cases h

theorem Numeral.wellFormed_of_value? {n : Numeral} {m : Number} (h : n.value? = some m) :
    m.WellFormed := by
  rw [Numeral.value?] at h
  split at h
  · next i hi =>
    obtain rfl := Option.some.inj h
    exact Numeral.range_of_integer? hi
  · obtain ⟨d, hd, rfl⟩ := Option.map_eq_some_iff.mp h
    exact Numeral.finite_of_double? hd

/-! ## Fields -/

variable {key : Text} {value : Json} {fields : List (Text × Json)}

theorem mem_insertField {field : Text × Json} (h : field ∈ insertField key value fields) :
    field = (key, value) ∨ field ∈ fields := by
  induction fields with
  | nil => exact .inl (List.mem_singleton.mp h)
  | cons first fields ih =>
      obtain ⟨k, v⟩ := first
      rw [insertField] at h
      split at h
      · rcases List.mem_cons.mp h with h | h
        · exact .inl h
        · exact .inr (List.mem_cons_of_mem _ h)
      split at h
      · exact List.mem_cons.mp h
      · rcases List.mem_cons.mp h with h | h
        · exact .inr (h ▸ List.mem_cons_self)
        · exact (ih h).imp_right (List.mem_cons_of_mem _)

theorem ascending_insertField (h : Ascending fields) : Ascending (insertField key value fields) := by
  induction fields with
  | nil => exact List.pairwise_singleton _ _
  | cons first fields ih =>
      obtain ⟨k, v⟩ := first
      obtain ⟨hfirst, hrest⟩ := List.pairwise_cons.mp h
      rw [insertField]
      split
      · next hk =>
        subst hk
        exact List.pairwise_cons.mpr ⟨hfirst, hrest⟩
      next hk =>
      split
      · next hprecedes =>
        refine List.pairwise_cons.mpr ⟨?_, h⟩
        intro field hfield
        rcases List.mem_cons.mp hfield with rfl | hfield
        · exact ⟨hprecedes, Ne.symm hk⟩
        · obtain ⟨hlater, hne⟩ := hfirst field hfield
          refine ⟨Text.precedes_trans hprecedes hlater, ?_⟩
          rintro rfl
          exact hne (Text.precedes_antisymm hlater hprecedes)
      · next hprecedes =>
        have hkey : Text.precedes k key := (Text.precedes_total k key).resolve_right hprecedes
        refine List.pairwise_cons.mpr ⟨?_, ih hrest⟩
        intro field hfield
        rcases mem_insertField hfield with rfl | hfield
        · exact ⟨hkey, hk⟩
        · exact hfirst field hfield

theorem fieldsWellFormed_iff : FieldsWellFormed fields ↔ ∀ field ∈ fields, field.2.WellFormed := by
  induction fields with
  | nil => simp [FieldsWellFormed]
  | cons field fields ih => simp [FieldsWellFormed, ih]

theorem depthOfFields_le_iff {n : Nat} :
    depthOfFields fields ≤ n ↔ ∀ field ∈ fields, field.2.depth ≤ n := by
  induction fields with
  | nil => simp [depthOfFields]
  | cons field fields ih => simp [depthOfFields, ih]

/-- Fields as they are collected: in order, well-formed, and at most `n` deep. -/
structure Collected (n : Nat) (fields : List (Text × Json)) : Prop where
  ascending : Ascending fields
  wellFormed : ∀ field ∈ fields, field.2.WellFormed
  depth : ∀ field ∈ fields, field.2.depth ≤ n

theorem Collected.nil (n : Nat) : Collected n [] := ⟨.nil, by simp, by simp⟩

theorem Collected.insertField {n : Nat} (h : Collected n fields) (hvalue : value.WellFormed)
    (hdepth : value.depth ≤ n) : Collected n (insertField key value fields) where
  ascending := ascending_insertField h.ascending
  wellFormed := by
    intro field hfield
    rcases mem_insertField hfield with rfl | hfield
    · exact hvalue
    · exact h.wellFormed field hfield
  depth := by
    intro field hfield
    rcases mem_insertField hfield with rfl | hfield
    · exact hdepth
    · exact h.depth field hfield

/-! ## Values -/

mutual

theorem wellFormed_of_toJson? : ∀ {f : Form} {v : Json}, f.toJson? = some v →
    v.WellFormed ∧ v.depth ≤ f.depth
  | .null, v, h => by
      obtain rfl := Option.some.inj h
      exact ⟨trivial, Nat.le_refl 0⟩
  | .bool b, v, h => by
      obtain rfl := Option.some.inj h
      exact ⟨trivial, Nat.le_refl 0⟩
  | .number n, v, h => by
      obtain ⟨m, hm, rfl⟩ := Option.map_eq_some_iff.mp h
      exact ⟨Numeral.wellFormed_of_value? hm, Nat.le_refl 0⟩
  | .string content, v, h => by
      obtain ⟨s, -, rfl⟩ := Option.map_eq_some_iff.mp h
      exact ⟨trivial, Nat.le_refl 0⟩
  | .array items, v, h => by
      obtain ⟨vs, hvs, rfl⟩ := Option.map_eq_some_iff.mp h
      obtain ⟨hwell, hdepth⟩ := wellFormed_of_itemsToJson? hvs
      exact ⟨hwell, Nat.succ_le_succ hdepth⟩
  | .object fields, v, h => by
      obtain ⟨vs, hvs, rfl⟩ := Option.map_eq_some_iff.mp h
      have hcollected := collected_of_fieldsToJson? hvs (Nat.le_refl _) (.nil _)
      exact ⟨⟨hcollected.ascending, fieldsWellFormed_iff.mpr hcollected.wellFormed⟩,
        Nat.succ_le_succ (depthOfFields_le_iff.mpr hcollected.depth)⟩

theorem wellFormed_of_itemsToJson? : ∀ {fs : List Form} {vs : List Json},
    Form.itemsToJson? fs = some vs → ItemsWellFormed vs ∧ depthOfItems vs ≤ Form.depthOfItems fs
  | [], vs, h => by
      obtain rfl := Option.some.inj h
      exact ⟨trivial, Nat.le_refl 0⟩
  | f :: fs, vs, h => by
      rw [Form.itemsToJson?] at h
      split at h
      · next v hv =>
        obtain ⟨ws, hws, rfl⟩ := Option.map_eq_some_iff.mp h
        obtain ⟨hwell, hdepth⟩ := wellFormed_of_toJson? hv
        obtain ⟨hwells, hdepths⟩ := wellFormed_of_itemsToJson? hws
        exact ⟨⟨hwell, hwells⟩, max_le_max hdepth hdepths⟩
      · cases h

theorem collected_of_fieldsToJson? : ∀ {fs : List (Option Text × Form)}
    {sofar fields : List (Text × Json)} {n : Nat}, Form.fieldsToJson? sofar fs = some fields →
      Form.depthOfFields fs ≤ n → Collected n sofar → Collected n fields
  | [], sofar, fields, n, h, _, hsofar => by
      obtain rfl := Option.some.inj h
      exact hsofar
  | (key, f) :: fs, sofar, fields, n, h, hdepth, hsofar => by
      rw [Form.fieldsToJson?.eq_def] at h
      rw [Form.depthOfFields, Nat.max_le] at hdepth
      simp only at h
      split at h
      · next k v hv =>
        obtain ⟨hwell, hle⟩ := wellFormed_of_toJson? hv
        exact collected_of_fieldsToJson? h hdepth.2 (hsofar.insertField hwell (hle.trans hdepth.1))
      · cases h

end

/-- What a value that was read is like. -/
theorem wellFormed_of_read? {s : Text} {v : Json} (h : read? s = some v) :
    v.WellFormed ∧ v.depth ≤ Form.maxDepth := by
  obtain ⟨f, -, hvalue⟩ := Option.bind_eq_some_iff.mp h
  rw [Form.value?] at hvalue
  split at hvalue
  · next hdepth =>
    obtain ⟨hwell, hle⟩ := wellFormed_of_toJson? hvalue
    exact ⟨hwell, hle.trans hdepth⟩
  · cases hvalue

end Json

end Crosscheck
