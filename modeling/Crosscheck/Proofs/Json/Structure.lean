import Crosscheck.Json.Basic
import Crosscheck.Json.Form
import Crosscheck.Proofs.Number.Exactness
import Crosscheck.Proofs.Text.Order
import Crosscheck.Value.Basic
import Mathlib.Data.List.Nodup
/-!
# The structure of JSON values

Two JSON values are alike if they have the same structure and related numbers at corresponding places.
Objects are compared by key; as they keep their keys in order, that is the same as field by field. Forms of
JSON texts can be told apart by a program.
-/

namespace Crosscheck

namespace Json

namespace Form

mutual

/-- Whether two forms are the same. -/
def same : Form → Form → Bool
  | .null, .null => true
  | .bool a, .bool b => a = b
  | .number m, .number n => m = n
  | .string a, .string b => a = b
  | .array xs, .array ys => sameItems xs ys
  | .object xs, .object ys => sameFields xs ys
  | _, _ => false

def sameItems : List Form → List Form → Bool
  | [], [] => true
  | x :: xs, y :: ys => same x y && sameItems xs ys
  | _, _ => false

def sameFields : List (Option Text × Form) → List (Option Text × Form) → Bool
  | [], [] => true
  | (k, x) :: xs, (l, y) :: ys => k = l && same x y && sameFields xs ys
  | _, _ => false

end

mutual

theorem same_iff (f g : Form) : f.same g ↔ f = g := by
  cases f <;> cases g <;> simp [same, sameItems_iff, sameFields_iff]

theorem sameItems_iff (xs ys : List Form) : sameItems xs ys ↔ xs = ys := by
  cases xs <;> cases ys <;> simp [sameItems, same_iff, sameItems_iff]

theorem sameFields_iff (xs ys : List (Option Text × Form)) : sameFields xs ys ↔ xs = ys := by
  rcases xs with _ | ⟨⟨k, x⟩, xs⟩ <;> rcases ys with _ | ⟨⟨l, y⟩, ys⟩ <;>
    simp [sameFields, same_iff, sameFields_iff, and_assoc]

end

instance : DecidableEq Form := fun f g => decidable_of_iff _ (same_iff f g)

end Form

/-- The exact value of a number. -/
def Number.value : Number → ℚ
  | .integer i => i
  | .double d => d.value

/-- The number is a signed or unsigned integer of 64 bits or a finite double. -/
def Number.WellFormed : Number → Prop
  | .integer i => Value.minInteger ≤ i ∧ i < 2 ^ 64
  | .double d => d.IsFinite

/-- The keys of the fields are in ascending order. -/
def Ascending {α : Type} (fields : List (Text × α)) : Prop :=
  fields.Pairwise fun a b => Text.precedes a.1 b.1 ∧ a.1 ≠ b.1

mutual

/-- All numbers are of 64 bits and every object has its keys in order. -/
def WellFormed : Json → Prop
  | .number n => n.WellFormed
  | .array items => ItemsWellFormed items
  | .object fields => Ascending fields ∧ FieldsWellFormed fields
  | _ => True

def ItemsWellFormed : List Json → Prop
  | [] => True
  | v :: vs => v.WellFormed ∧ ItemsWellFormed vs

def FieldsWellFormed : List (Text × Json) → Prop
  | [] => True
  | (_, v) :: rest => v.WellFormed ∧ FieldsWellFormed rest

end

mutual

/-- The numbers in a value. -/
def numbers : Json → List Number
  | .number n => [n]
  | .array items => itemNumbers items
  | .object fields => fieldNumbers fields
  | _ => []

def itemNumbers : List Json → List Number
  | [] => []
  | v :: vs => v.numbers ++ itemNumbers vs

def fieldNumbers : List (Text × Json) → List Number
  | [] => []
  | (_, v) :: rest => v.numbers ++ fieldNumbers rest

end

mutual

theorem wellFormed_of_mem_numbers : ∀ {a : Json}, a.WellFormed → ∀ n ∈ a.numbers, n.WellFormed
  | .null, _, _, h | .bool _, _, _, h | .string _, _, _, h => absurd h List.not_mem_nil
  | .number _, ha, n, h => by
      rw [numbers, List.mem_singleton] at h
      rwa [h]
  | .array _, ha, n, h => wellFormed_of_mem_itemNumbers ha n h
  | .object _, ha, n, h => wellFormed_of_mem_fieldNumbers ha.2 n h

theorem wellFormed_of_mem_itemNumbers : ∀ {xs : List Json}, ItemsWellFormed xs →
    ∀ n ∈ itemNumbers xs, n.WellFormed
  | [], _, _, h => absurd h List.not_mem_nil
  | _ :: _, hxs, n, h => by
      rcases List.mem_append.mp h with h | h
      · exact wellFormed_of_mem_numbers hxs.1 n h
      · exact wellFormed_of_mem_itemNumbers hxs.2 n h

theorem wellFormed_of_mem_fieldNumbers : ∀ {xs : List (Text × Json)}, FieldsWellFormed xs →
    ∀ n ∈ fieldNumbers xs, n.WellFormed
  | [], _, _, h => absurd h List.not_mem_nil
  | (_, _) :: _, hxs, n, h => by
      rcases List.mem_append.mp h with h | h
      · exact wellFormed_of_mem_numbers hxs.1 n h
      · exact wellFormed_of_mem_fieldNumbers hxs.2 n h

end

mutual

/-- The same structure, objects compared by key, with related numbers at corresponding places. -/
def Alike (rel : Number → Number → Prop) : Json → Json → Prop
  | .null, .null => True
  | .bool a, .bool b => a = b
  | .number m, .number n => rel m n
  | .string s, .string t => s = t
  | .array xs, .array ys => ItemsAlike rel xs ys
  | .object xs, .object ys => xs.length = ys.length ∧ FieldsAlike rel xs ys
  | _, _ => False

def ItemsAlike (rel : Number → Number → Prop) : List Json → List Json → Prop
  | [], [] => True
  | x :: xs, y :: ys => Alike rel x y ∧ ItemsAlike rel xs ys
  | _, _ => False

/-- Every one of the fields has its counterpart under the same key. -/
def FieldsAlike (rel : Number → Number → Prop) : List (Text × Json) → List (Text × Json) → Prop
  | [], _ => True
  | (k, x) :: rest, ys => (∃ y, field? k ys = some y ∧ Alike rel x y) ∧ FieldsAlike rel rest ys

end

variable {rel : Number → Number → Prop} {k l : Text} {x y : Json} {xs ys : List (Text × Json)}

theorem field?_cons_self : field? k ((k, y) :: ys) = some y := by
  simp [field?]

theorem field?_cons_ne (h : k ≠ l) : field? k ((l, y) :: ys) = field? k ys := by
  rw [field?, List.lookup_cons, beq_eq_false_iff_ne.mpr h, field?]

theorem mem_keys_of_field? (h : field? k ys = some y) : k ∈ ys.map Prod.fst := by
  induction ys with
  | nil => cases h
  | cons entry ys ih =>
      obtain ⟨l, z⟩ := entry
      by_cases hkl : k = l
      · exact hkl ▸ List.mem_cons_self
      · rw [field?_cons_ne hkl] at h
        exact List.mem_cons_of_mem _ (ih h)

theorem wellFormed_of_field? (hys : FieldsWellFormed ys) (h : field? k ys = some y) :
    y.WellFormed := by
  induction ys with
  | nil => cases h
  | cons entry ys ih =>
      obtain ⟨l, z⟩ := entry
      by_cases hkl : k = l
      · rw [hkl, field?_cons_self] at h
        cases h
        exact hys.1
      · rw [field?_cons_ne hkl] at h
        exact ih hys.2 h

theorem FieldsAlike.keys (h : FieldsAlike rel xs ys) : xs.map Prod.fst ⊆ ys.map Prod.fst := by
  induction xs with
  | nil => exact List.nil_subset _
  | cons entry xs ih =>
      obtain ⟨⟨y, hy, -⟩, hrest⟩ := h
      exact List.cons_subset.mpr ⟨mem_keys_of_field? hy, ih hrest⟩

/-- A field whose key does not occur does not matter. -/
theorem fieldsAlike_cons_iff (h : l ∉ xs.map Prod.fst) :
    FieldsAlike rel xs ((l, y) :: ys) ↔ FieldsAlike rel xs ys := by
  induction xs with
  | nil => exact Iff.rfl
  | cons entry xs ih =>
      obtain ⟨k, x⟩ := entry
      rw [List.map_cons, List.mem_cons, not_or] at h
      simp only [FieldsAlike, field?_cons_ne (Ne.symm h.1), ih h.2]

theorem Ascending.nodup {α : Type} {fields : List (Text × α)} (h : Ascending fields) :
    (fields.map Prod.fst).Nodup :=
  List.pairwise_map.mpr (h.imp And.right)

theorem Ascending.of_keys {α β : Type} {xs : List (Text × α)} {ys : List (Text × β)}
    (h : Ascending xs) (hkeys : ys.map Prod.fst = xs.map Prod.fst) : Ascending ys := by
  have hxs : (xs.map Prod.fst).Pairwise fun k l => Text.precedes k l ∧ k ≠ l :=
    List.pairwise_map.mpr h
  rw [← hkeys] at hxs
  exact List.pairwise_map.mp hxs

/-- Objects with the same keys start with the same key. -/
theorem eq_of_keys_subset (hxs : Ascending ((k, x) :: xs)) (hys : Ascending ((l, y) :: ys))
    (hlength : xs.length = ys.length)
    (hkeys : ((k, x) :: xs).map Prod.fst ⊆ ((l, y) :: ys).map Prod.fst) : k = l := by
  by_contra hkl
  obtain ⟨hk, hl⟩ := List.cons_subset.mp hkeys
  have hkys : k ∈ ys.map Prod.fst := (List.mem_cons.mp hk).resolve_left hkl
  obtain ⟨⟨k', z⟩, hz, rfl⟩ := List.mem_map.mp hkys
  have hlk := (List.rel_of_pairwise_cons hys hz).1
  -- the least key of the second object is not a key of the first one
  have hsub : ((k', x) :: xs).map Prod.fst ⊆ ys.map Prod.fst := by
    intro key hkey
    refine (List.mem_cons.mp (hkeys hkey)).resolve_left ?_
    intro hkeyl
    rcases List.mem_cons.mp hkey with hfirst | hlater
    · exact hkl (hfirst.symm.trans hkeyl)
    · obtain ⟨entry, hentry, rfl⟩ := List.mem_map.mp hlater
      have hkl' := (List.rel_of_pairwise_cons hxs hentry).1
      rw [hkeyl] at hkl'
      exact hkl (Text.precedes_antisymm hkl' hlk)
  have hle := (Ascending.nodup hxs).length_le_of_subset hsub
  simp only [List.map_cons, List.length_cons, List.length_map] at hle
  omega

/-- Objects that keep their keys in order are alike by key exactly if they are field by field. -/
theorem fieldsAlike_cons_cons (hxs : Ascending ((k, x) :: xs)) (hys : Ascending ((l, y) :: ys)) :
    (((k, x) :: xs).length = ((l, y) :: ys).length ∧ FieldsAlike rel ((k, x) :: xs) ((l, y) :: ys)) ↔
      k = l ∧ Alike rel x y ∧ xs.length = ys.length ∧ FieldsAlike rel xs ys := by
  have hfirst (hkl : k = l) : l ∉ xs.map Prod.fst := by
    have hnodup := Ascending.nodup hxs
    rw [List.map_cons, List.nodup_cons, hkl] at hnodup
    exact hnodup.1
  constructor
  · intro ⟨hlength, halike⟩
    have hrestLength : xs.length = ys.length := Nat.succ.inj hlength
    have hkl := eq_of_keys_subset hxs hys hrestLength halike.keys
    obtain ⟨⟨z, hz, hxz⟩, hrest⟩ := halike
    rw [fieldsAlike_cons_iff (hfirst hkl)] at hrest
    subst hkl
    rw [field?_cons_self] at hz
    cases hz
    exact ⟨rfl, hxz, hrestLength, hrest⟩
  · intro ⟨hkl, hxy, hlength, hrest⟩
    refine ⟨congrArg Nat.succ hlength, ⟨y, ?_, hxy⟩, (fieldsAlike_cons_iff (hfirst hkl)).mpr hrest⟩
    rw [hkl, field?_cons_self]

end Json

end Crosscheck
