import Crosscheck.Patch.Patcher
import Crosscheck.Proofs.Patch.Weight
import Mathlib.Logic.Function.Iterate
/-!
# Passes

Rules that lighten whatever they change settle after finitely many passes. A patcher makes a fixed number
of them: the text that it hands out is settled, and stays when it is patched again, just when that number
was enough.
-/

namespace Crosscheck

open Text

namespace Substitution.Lightens

variable {a : Substitution} {s : Text}

theorem weight_apply_le (h : a.Lightens) (s : Text) : weight (a.apply s) ≤ weight s := by
  by_cases hs : a.Occurs s
  · exact Nat.le_of_add_right_le (h.lightens hs)
  · exact Nat.le_of_eq (congrArg weight (h.keeps hs))

theorem apply_eq_iff (h : a.Lightens) : a.apply s = s ↔ ¬ a.Occurs s := by
  refine ⟨?_, h.keeps⟩
  intro hkept hs
  have hlighter := h.lightens hs
  rw [hkept] at hlighter
  omega

theorem not_occurs_nil (h : a.Lightens) : ¬ a.Occurs [] := by
  intro hs
  have hlighter : weight (a.apply []) + 2 ≤ 0 := h.lightens hs
  omega

end Substitution.Lightens

namespace Patcher

variable {rules : List PatchRule} {s : Text} {bound : Nat}

/-- None of the rules finds anything to do. -/
def Settled (rules : List PatchRule) (s : Text) : Prop := ∀ rule ∈ rules, ¬ rule.action.Occurs s

/-- One of the texts that the first `bound` passes lead to is settled. -/
def SettlesWithin (rules : List PatchRule) (bound : Nat) (s : Text) : Prop :=
  ∃ n ≤ bound, Settled rules ((sweep rules)^[n] s)

theorem sweep_cons (rule : PatchRule) (rules : List PatchRule) (s : Text) :
    sweep (rule :: rules) s = sweep rules (rule.apply s) := rfl

theorem sweep_append (before after : List PatchRule) (s : Text) :
    sweep (before ++ after) s = sweep after (sweep before s) :=
  List.foldl_append

theorem settled_cons {rule : PatchRule} :
    Settled (rule :: rules) s ↔ ¬ rule.action.Occurs s ∧ Settled rules s :=
  List.forall_mem_cons

/-! ## One pass -/

section Lightening

variable (h : ∀ rule ∈ rules, rule.action.Lightens)

include h

theorem sweep_settled (hs : Settled rules s) : sweep rules s = s := by
  induction rules with
  | nil => rfl
  | cons rule rules ih =>
      obtain ⟨hrule, hrules⟩ := List.forall_mem_cons.mp h
      obtain ⟨hnone, hrest⟩ := settled_cons.mp hs
      have hkept : rule.apply s = s := hrule.keeps hnone
      rw [sweep_cons, hkept, ih hrules hrest]

theorem weight_sweep_le (s : Text) : weight (sweep rules s) ≤ weight s := by
  induction rules generalizing s with
  | nil => exact Nat.le_refl _
  | cons rule rules ih =>
      obtain ⟨hrule, hrules⟩ := List.forall_mem_cons.mp h
      exact Nat.le_trans (ih hrules (rule.apply s)) (hrule.weight_apply_le s)

/-- A pass in which a rule has something to do takes off 2 or more. -/
theorem weight_sweep_add_two_le (hs : ¬ Settled rules s) : weight (sweep rules s) + 2 ≤ weight s := by
  induction rules with
  | nil => exact absurd (fun _ hmem => absurd hmem List.not_mem_nil) hs
  | cons rule rules ih =>
      obtain ⟨hrule, hrules⟩ := List.forall_mem_cons.mp h
      rw [sweep_cons]
      by_cases hoccurs : rule.action.Occurs s
      · have happly : weight (rule.apply s) + 2 ≤ weight s := hrule.lightens hoccurs
        have hrest := weight_sweep_le hrules (rule.apply s)
        omega
      · have hkept : rule.apply s = s := hrule.keeps hoccurs
        rw [hkept]
        exact ih hrules fun hrest => hs (settled_cons.mpr ⟨hoccurs, hrest⟩)

theorem changes_eq_false_iff : changes rules s = false ↔ Settled rules s := by
  induction rules with
  | nil => exact ⟨fun _ _ hmem => absurd hmem List.not_mem_nil, fun _ => rfl⟩
  | cons rule rules ih =>
      obtain ⟨hrule, hrules⟩ := List.forall_mem_cons.mp h
      have hkept : rule.apply s = s ↔ ¬ rule.action.Occurs s := hrule.apply_eq_iff
      rw [changes, Bool.or_eq_false_iff, bne_eq_false_iff_eq, settled_cons, hkept]
      refine and_congr_right ?_
      intro hnone
      rw [hkept.mpr hnone, ih hrules]

/-! ## All passes -/

/-- Stopping early makes no difference: nothing changes in the passes that are left out. -/
theorem settle_eq_iterate (bound : Nat) (s : Text) : settle rules bound s = (sweep rules)^[bound] s := by
  induction bound generalizing s with
  | zero => rfl
  | succ bound ih =>
      rw [settle]
      by_cases hs : Settled rules s
      · rw [if_neg (Bool.not_eq_true _ ▸ (changes_eq_false_iff h).mpr hs)]
        exact (Function.iterate_fixed (sweep_settled h hs) _).symm
      · have hchanges : changes rules s = true := by
          rw [← Bool.not_eq_false, changes_eq_false_iff h]
          exact hs
        rw [if_pos hchanges, ih, Function.iterate_succ_apply]

theorem weight_iterate (n : Nat) (hs : ¬ Settled rules ((sweep rules)^[n] s)) :
    weight ((sweep rules)^[n + 1] s) + 2 * (n + 1) ≤ weight s := by
  induction n with
  | zero => exact weight_sweep_add_two_le h hs
  | succ n ih =>
      have hbefore : ¬ Settled rules ((sweep rules)^[n] s) := by
        intro hsettled
        rw [Function.iterate_succ_apply', sweep_settled h hsettled] at hs
        exact hs hsettled
      have hpasses := ih hbefore
      have hlast := weight_sweep_add_two_le h hs
      rw [← Function.iterate_succ_apply' (sweep rules), Nat.succ_eq_add_one] at hlast
      omega

/-- Half the weight of a text is a bound for its passes. -/
theorem settlesWithin_weight (s : Text) : SettlesWithin rules (weight s / 2) s := by
  refine ⟨weight s / 2, Nat.le_refl _, ?_⟩
  by_contra hs
  have hpasses := weight_iterate h (weight s / 2) hs
  omega

theorem settled_settle_iff : Settled rules (settle rules bound s) ↔ SettlesWithin rules bound s := by
  rw [settle_eq_iterate h]
  refine ⟨fun hs => ⟨bound, Nat.le_refl _, hs⟩, ?_⟩
  intro hwithin
  obtain ⟨n, hn, hs⟩ := hwithin
  obtain ⟨k, rfl⟩ := Nat.exists_eq_add_of_le' hn
  rw [Function.iterate_add_apply, Function.iterate_fixed (sweep_settled h hs)]
  exact hs

/-- What some passes leave as it is, the first of them leaves as it is. -/
theorem settle_eq_iff (hbound : 0 < bound) : settle rules bound s = s ↔ Settled rules s := by
  rw [settle_eq_iterate h]
  refine ⟨?_, fun hs => Function.iterate_fixed (sweep_settled h hs) bound⟩
  intro hkept
  by_contra hs
  have hpasses : ∀ n, weight ((sweep rules)^[n] (sweep rules s)) ≤ weight (sweep rules s) := by
    intro n
    induction n with
    | zero => exact Nat.le_refl _
    | succ n ih =>
        rw [Function.iterate_succ_apply']
        exact Nat.le_trans (weight_sweep_le h _) ih
  have hrest := hpasses (bound - 1)
  rw [← Function.iterate_succ_apply, Nat.succ_eq_add_one, Nat.sub_add_cancel hbound, hkept] at hrest
  have hfirst := weight_sweep_add_two_le h hs
  omega

end Lightening

end Patcher

end Crosscheck
