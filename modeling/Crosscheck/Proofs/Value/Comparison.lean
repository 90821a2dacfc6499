import Crosscheck.Proofs.Value.Canonical
/-!
# Comparing canonical forms

Two JSON values have equal canonical forms exactly if they have the same structure and the same is kept of
the numbers at corresponding places. So equal values are never told apart, and unequal ones are confused
only where numbers between 2 ^ 63 - 1 and 2 ^ 64 are involved.
-/

namespace Crosscheck

namespace Json

/-- The numbers are equal. -/
def Number.SameValue (m n : Number) : Prop := m.value = n.value

/-- The same is kept of both numbers. -/
def Number.SameKept (m n : Number) : Prop := Value.kept m.value = Value.kept n.value

variable {r q : Number → Number → Prop}

mutual

theorem Alike.imp : ∀ {a b : Json}, b.WellFormed →
    (∀ m ∈ a.numbers, ∀ n : Number, n.WellFormed → r m n → q m n) → Alike r a b → Alike q a b
  | .null, b, _, _, h => by cases b <;> exact h
  | .bool _, b, _, _, h => by cases b <;> exact h
  | .string _, b, _, _, h => by cases b <;> exact h
  | .number m, b, hb, himp, h => by
      cases b with
      | number n => exact himp m (List.mem_singleton_self m) n hb h
      | _ => exact h
  | .array xs, b, hb, himp, h => by
      cases b with
      | array ys => exact ItemsAlike.imp hb himp h
      | _ => exact h
  | .object xs, b, hb, himp, h => by
      cases b with
      | object ys => exact ⟨h.1, FieldsAlike.imp hb.2 himp h.2⟩
      | _ => exact h

theorem ItemsAlike.imp : ∀ {xs ys : List Json}, ItemsWellFormed ys →
    (∀ m ∈ itemNumbers xs, ∀ n : Number, n.WellFormed → r m n → q m n) →
    ItemsAlike r xs ys → ItemsAlike q xs ys
  | [], ys, _, _, h => by cases ys <;> exact h
  | x :: xs, ys, hys, himp, h => by
      cases ys with
      | nil => exact h
      | cons y ys =>
          exact ⟨Alike.imp hys.1 (fun m hm => himp m (List.mem_append_left _ hm)) h.1,
            ItemsAlike.imp hys.2 (fun m hm => himp m (List.mem_append_right _ hm)) h.2⟩

theorem FieldsAlike.imp : ∀ {xs ys : List (Text × Json)}, FieldsWellFormed ys →
    (∀ m ∈ fieldNumbers xs, ∀ n : Number, n.WellFormed → r m n → q m n) →
    FieldsAlike r xs ys → FieldsAlike q xs ys
  | [], _, _, _, _ => trivial
  | _ :: _, _, hys, himp, ⟨⟨y, hy, hxy⟩, hrest⟩ =>
      ⟨⟨y, hy, Alike.imp (wellFormed_of_field? hys hy)
          (fun m hm => himp m (List.mem_append_left _ hm)) hxy⟩,
        FieldsAlike.imp hys (fun m hm => himp m (List.mem_append_right _ hm)) hrest⟩

end

end Json

namespace Value

open Json

theorem ofNumber_shape (n : Number) : (∃ i, ofNumber n = .integer i) ∨ ∃ d, ofNumber n = .float d := by
  have hdouble (d : Double) : (∃ i, ofDouble d = .integer i) ∨ ∃ e, ofDouble d = .float e := by
    rw [ofDouble]
    split
    · split
      · exact .inl ⟨_, rfl⟩
      · exact .inr ⟨_, rfl⟩
    · exact .inr ⟨_, rfl⟩
  cases n with
  | double d => exact hdouble d
  | integer i =>
      rw [ofNumber]
      split
      · exact .inl ⟨i, rfl⟩
      · exact hdouble _

/-- A number is like nothing but a number, before and after. -/
theorem equals_number_left {n : Number} {b : Json} (hb : ∀ m, b ≠ .number m) :
    (ofJson (.number n)).equals (ofJson b) ↔ Alike Number.SameKept (.number n) b := by
  have hshape := ofNumber_shape n
  rw [ofJson]
  cases b with
  | number m => exact absurd rfl (hb m)
  | _ => rcases hshape with ⟨i, hi⟩ | ⟨d, hd⟩ <;> simp [*, ofJson, equals, Alike]

theorem equals_number_right {n : Number} {a : Json} (ha : ∀ m, a ≠ .number m) :
    (ofJson a).equals (ofJson (.number n)) ↔ Alike Number.SameKept a (.number n) := by
  have hshape := ofNumber_shape n
  rw [ofJson.eq_def (.number n)]
  cases a with
  | number m => exact absurd rfl (ha m)
  | _ => rcases hshape with ⟨i, hi⟩ | ⟨d, hd⟩ <;> simp [*, ofJson, equals, Alike]

mutual

/-- Canonical forms are equal exactly if the values are alike in what is kept of their numbers. -/
theorem equals_ofJson : ∀ {a b : Json}, a.WellFormed → b.WellFormed →
    ((ofJson a).equals (ofJson b) ↔ Alike Number.SameKept a b)
  | .number m, b, ha, hb => by
      cases b with
      | number n => exact equals_ofNumber ha hb
      | _ => exact equals_number_left fun _ h => by cases h
  | .null, b, _, _ => by
      cases b with
      | number n => exact equals_number_right fun _ h => by cases h
      | _ => simp [ofJson, equals, Alike]
  | .bool _, b, _, _ => by
      cases b with
      | number n => exact equals_number_right fun _ h => by cases h
      | _ => simp [ofJson, equals, Alike]
  | .string _, b, _, _ => by
      cases b with
      | number n => exact equals_number_right fun _ h => by cases h
      | _ => simp [ofJson, equals, Alike]
  | .array xs, b, ha, hb => by
      cases b with
      | number n => exact equals_number_right fun _ h => by cases h
      | array ys => exact equalItems_ofItems ha hb
      | _ => simp [ofJson, equals, Alike]
  | .object xs, b, ha, hb => by
      cases b with
      | number n => exact equals_number_right fun _ h => by cases h
      | object ys => exact equalFields_ofFields ha.1 ha.2 hb.1 hb.2
      | _ => simp [ofJson, equals, Alike]

theorem equalItems_ofItems : ∀ {xs ys : List Json}, ItemsWellFormed xs → ItemsWellFormed ys →
    (equalItems (ofItems xs) (ofItems ys) ↔ ItemsAlike Number.SameKept xs ys)
  | [], ys, _, _ => by cases ys <;> simp [ofItems, equalItems, ItemsAlike]
  | x :: xs, ys, hxs, hys => by
      cases ys with
      | nil => simp [ofItems, equalItems, ItemsAlike]
      | cons y ys =>
          rw [ofItems, ofItems, equalItems, Bool.and_eq_true, equals_ofJson hxs.1 hys.1,
            equalItems_ofItems hxs.2 hys.2, ItemsAlike]

theorem equalFields_ofFields : ∀ {xs ys : List (Text × Json)}, Ascending xs → FieldsWellFormed xs →
    Ascending ys → FieldsWellFormed ys → (equalFields (ofFields xs) (ofFields ys) ↔
      xs.length = ys.length ∧ FieldsAlike Number.SameKept xs ys)
  | [], ys, _, _, _, _ => by cases ys <;> simp [ofFields, equalFields, FieldsAlike]
  | (k, x) :: xs, ys, hxs, hwx, hys, hwy => by
      cases ys with
      | nil => simp [ofFields, equalFields]
      | cons entry ys =>
          obtain ⟨l, y⟩ := entry
          rw [fieldsAlike_cons_cons hxs hys, ofFields, ofFields, equalFields, Bool.and_eq_true,
            Bool.and_eq_true, beq_iff_eq, equals_ofJson hwx.1 hwy.1,
            equalFields_ofFields hxs.of_cons hwx.2 hys.of_cons hwy.2, and_assoc]

end

/-! ## Unequal values with equal canonical forms -/

mutual

/-- There is a value of which the same is kept, and it is unequal if some number is blurred. -/
theorem exists_confused : ∀ {a : Json}, a.WellFormed → ∃ b : Json, b.WellFormed ∧
    Alike Number.SameKept a b ∧ (Alike Number.SameValue a b → ∀ n ∈ a.numbers, ¬ Blurred n)
  | .null, _ => ⟨.null, trivial, trivial, by simp [numbers]⟩
  | .bool b, _ => ⟨.bool b, trivial, rfl, by simp [numbers]⟩
  | .string s, _ => ⟨.string s, trivial, rfl, by simp [numbers]⟩
  | .number n, hn => by
      by_cases h : Blurred n
      · obtain ⟨m, hm, hkept, hne⟩ := h.exists_other hn
        exact ⟨.number m, hm, hkept, fun heq => absurd heq hne⟩
      · refine ⟨.number n, hn, rfl, fun _ m hm => ?_⟩
        rw [numbers, List.mem_singleton] at hm
        rwa [hm]
  | .array xs, hxs => by
      obtain ⟨ys, hys, hkept, hvalue⟩ := exists_confused_items hxs
      exact ⟨.array ys, hys, hkept, hvalue⟩
  | .object xs, ⟨hasc, hxs⟩ => by
      obtain ⟨ys, hkeys, hys, hkept, hvalue⟩ := exists_confused_fields hasc hxs
      exact ⟨.object ys, ⟨hasc.of_keys hkeys, hys⟩, hkept, hvalue⟩

theorem exists_confused_items : ∀ {xs : List Json}, ItemsWellFormed xs → ∃ ys, ItemsWellFormed ys ∧
    ItemsAlike Number.SameKept xs ys ∧
      (ItemsAlike Number.SameValue xs ys → ∀ n ∈ itemNumbers xs, ¬ Blurred n)
  | [], _ => ⟨[], trivial, trivial, by simp [itemNumbers]⟩
  | _ :: _, ⟨hx, hxs⟩ => by
      obtain ⟨y, hy, hkept, hvalue⟩ := exists_confused hx
      obtain ⟨ys, hys, hkepts, hvalues⟩ := exists_confused_items hxs
      refine ⟨y :: ys, ⟨hy, hys⟩, ⟨hkept, hkepts⟩, ?_⟩
      intro ⟨hxy, hrest⟩ n hn
      rcases List.mem_append.mp hn with hn | hn
      · exact hvalue hxy n hn
      · exact hvalues hrest n hn

theorem exists_confused_fields : ∀ {xs : List (Text × Json)}, Ascending xs → FieldsWellFormed xs →
    ∃ ys : List (Text × Json), ys.map Prod.fst = xs.map Prod.fst ∧ FieldsWellFormed ys ∧
      (xs.length = ys.length ∧ FieldsAlike Number.SameKept xs ys) ∧
      (xs.length = ys.length ∧ FieldsAlike Number.SameValue xs ys →
        ∀ n ∈ fieldNumbers xs, ¬ Blurred n)
  | [], _, _ => ⟨[], rfl, trivial, ⟨rfl, trivial⟩, by simp [fieldNumbers]⟩
  | (k, x) :: xs, hasc, ⟨hx, hxs⟩ => by
      obtain ⟨y, hy, hkept, hvalue⟩ := exists_confused hx
      obtain ⟨ys, hkeys, hys, hkepts, hvalues⟩ := exists_confused_fields hasc.of_cons hxs
      have hkeys' : ((k, y) :: ys).map Prod.fst = ((k, x) :: xs).map Prod.fst :=
        congrArg (k :: ·) hkeys
      have hasc' := hasc.of_keys hkeys'
      refine ⟨(k, y) :: ys, hkeys', ⟨hy, hys⟩, ?_, ?_⟩
      · exact (fieldsAlike_cons_cons hasc hasc').mpr ⟨rfl, hkept, hkepts⟩
      · rw [fieldsAlike_cons_cons hasc hasc']
        intro ⟨_, hxy, hrest⟩ n hn
        rcases List.mem_append.mp hn with hn | hn
        · exact hvalue hxy n hn
        · exact hvalues hrest n hn

end

/-- Canonical forms of equal values are equal. Canonical forms are equal only for equal values exactly
where no number lies from 2 ^ 63 - 1 to 2 ^ 64, and a number that becomes an integer is equal to it exactly
unless it lies from 2 ^ 63 to 2 ^ 63 + 1024. -/
theorem canonicalization_exact (a : Json) (ha : a.WellFormed) :
    (∀ b : Json, b.WellFormed → Alike Number.SameValue a b → (ofJson a).equals (ofJson b)) ∧
    ((∀ b : Json, b.WellFormed → ((ofJson a).equals (ofJson b) ↔ Alike Number.SameValue a b)) ↔
      ∀ n ∈ a.numbers, n.value < 2 ^ 63 - 1 ∨ 2 ^ 64 < n.value) ∧
    (∀ n ∈ a.numbers, ∀ i, ofNumber n = .integer i →
      (n.value = i ↔ ¬ (2 ^ 63 ≤ n.value ∧ n.value ≤ 2 ^ 63 + 1024))) := by
  have hequal (b : Json) (hb : b.WellFormed) (h : Alike Number.SameValue a b) :
      (ofJson a).equals (ofJson b) :=
    (equals_ofJson ha hb).mpr (h.imp hb fun _ _ _ _ heq => congrArg kept heq)
  have hclear (n : Number) : (n.value < 2 ^ 63 - 1 ∨ 2 ^ 64 < n.value) ↔ ¬ Blurred n := by
    rw [Blurred, not_and_or, not_le, not_le]
  refine ⟨hequal, ?_, fun n hn i => ofNumber_eq_integer (wellFormed_of_mem_numbers ha n hn)⟩
  simp only [hclear]
  constructor
  · intro h
    obtain ⟨b, hb, hkept, hvalue⟩ := exists_confused ha
    exact hvalue ((h b hb).mp ((equals_ofJson ha hb).mpr hkept))
  · intro h b hb
    refine ⟨fun heq => ?_, hequal b hb⟩
    exact ((equals_ofJson ha hb).mp heq).imp hb fun m hm n hn => value_eq_of_kept_eq (h m hm) hn

private def sixPointZero : Double := .finite false ⟨6755399441055744, -50, by decide⟩

private def sixPointFive : Double := .finite false ⟨7318349394477056, -50, by decide⟩

private def mixedList : Json := .array [.number (.integer 6), .number (.double sixPointFive)]

private def doubleList : Json := .array [.number (.double sixPointZero), .number (.double sixPointFive)]

theorem canonicalization_exact_list : (ofJson mixedList).equals (ofJson doubleList) ∧
    ((ofJson mixedList).equals (ofJson doubleList) ↔ Alike Number.SameValue mixedList doubleList) := by
  have hmixed : mixedList.WellFormed := ⟨⟨by decide, by decide⟩, ⟨false, _, rfl⟩, trivial⟩
  have hdouble : doubleList.WellFormed := ⟨⟨false, _, rfl⟩, ⟨false, _, rfl⟩, trivial⟩
  have hsix : sixPointZero.value = 6 := by
    norm_num [sixPointZero, Double.value, Magnitude.value]
  have hhalf : sixPointFive.value = 13 / 2 := by
    norm_num [sixPointFive, Double.value, Magnitude.value]
  have halike : Alike Number.SameValue mixedList doubleList := by
    refine ⟨?_, rfl, trivial⟩
    change ((6 : Int) : ℚ) = sixPointZero.value
    rw [hsix]
    rfl
  obtain ⟨hequal, hexact, -⟩ := canonicalization_exact mixedList hmixed
  refine ⟨hequal _ hdouble halike, hexact.mpr ?_ _ hdouble⟩
  intro n hn
  simp only [mixedList, numbers, itemNumbers, List.cons_append, List.nil_append, List.mem_cons,
    List.not_mem_nil, or_false] at hn
  rcases hn with rfl | rfl
  · norm_num [Number.value]
  · norm_num [Number.value, hhalf]

/-- The greatest signed integer of 64 bits is not told apart from the next number. -/
theorem equals_past_greatest :
    (ofJson (.number (.integer 9223372036854775807))).equals
        (ofJson (.number (.integer 9223372036854775808))) ∧
      ¬ Alike Number.SameValue (.number (.integer 9223372036854775807))
        (.number (.integer 9223372036854775808)) := by
  refine ⟨by decide, ?_⟩
  intro h
  have hvalue : (9223372036854775807 : ℚ) = 9223372036854775808 := h
  norm_num at hvalue

end Value

end Crosscheck
