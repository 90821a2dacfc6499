import Crosscheck.Text.Edit
import Mathlib.Data.List.Pairwise
/-!
# Edits from either end

Edits of disjoint parts that are carried out from the last to the first give the text that is put together
from left to right out of the parts between them and what replaces them.
-/

namespace Crosscheck.Edit

/-- The edits exchange parts of `s` in their order, none overlaps the next, and no two start together. -/
structure Ascending (s : Text) (edits : List Edit) : Prop where
  order : edits.Pairwise fun e f => e.stop ≤ f.start ∧ e.start < f.start
  inside : ∀ e ∈ edits, e.start ≤ e.stop ∧ e.stop ≤ s.length

/-- The text put together from left to right; `position` characters of the text stand before `s`. -/
def leftToRight (position : Nat) (s : Text) : List Edit → Text
  | [] => s
  | e :: rest =>
    s.take (e.start - position) ++ e.by_ ++ leftToRight e.stop (s.drop (e.stop - position)) rest

theorem mergeSort_ascending {edits : List Edit}
    (h : edits.Pairwise fun e f => e.stop ≤ f.start ∧ e.start < f.start) :
    (edits.mergeSort fun e f => f.start ≤ e.start) = edits.reverse := by
  have hsorted := @List.pairwise_mergeSort Edit (fun e f => decide (f.start ≤ e.start))
    (by intro a b c hab hbc; simp only [decide_eq_true_eq] at *; omega)
    (by intro a b; simp only [Bool.or_eq_true, decide_eq_true_eq]; omega) edits
  have hrev : edits.reverse.Pairwise fun e f => decide (f.start ≤ e.start) := by
    rw [List.pairwise_reverse]
    exact h.imp fun hef => decide_eq_true (Nat.le_of_lt hef.2)
  refine List.Perm.eq_of_pairwise ?_ hsorted hrev
    ((List.mergeSort_perm edits _).trans edits.reverse_perm.symm)
  -- Edits that start together are the same edit, because the starts are strictly ascending.
  intro e f he hf hef hfe
  rw [List.mem_mergeSort] at he
  rw [List.mem_reverse] at hf
  have hstart : e.start = f.start := by simp only [decide_eq_true_eq] at hef hfe; omega
  by_contra hne
  have hdistinct : edits.Pairwise fun e f => e.start ≠ f.start :=
    h.imp fun hef => Nat.ne_of_lt hef.2
  have : Std.Symm fun e f : Edit => e.start ≠ f.start := ⟨fun _ _ => Ne.symm⟩
  exact hdistinct.forall he hf hne hstart

theorem foldr_apply {s : Text} {edits : List Edit} (h : Ascending s edits) {position : Nat}
    (hpos : ∀ e ∈ edits, position ≤ e.start) :
    edits.foldr (fun e t => e.apply t) s =
      s.take position ++ leftToRight position (s.drop position) edits := by
  induction edits generalizing position with
  | nil => exact (List.take_append_drop position s).symm
  | cons e es ih =>
      obtain ⟨hes, htail⟩ := List.pairwise_cons.mp h.order
      have hstart := hpos e (by simp)
      obtain ⟨hle, hlen⟩ := h.inside e (by simp)
      have hrec := ih ⟨htail, fun f hf => h.inside f (by simp [hf])⟩ fun f hf => (hes f hf).1
      have hprefix : (s.take e.stop).length = e.stop := List.length_take_of_le hlen
      have htake : s.take e.start = s.take position ++ (s.drop position).take (e.start - position) := by
        rw [← List.take_add, Nat.add_sub_cancel' hstart]
      have hdrop : (s.drop position).drop (e.stop - position) = s.drop e.stop := by
        rw [List.drop_drop, Nat.add_sub_cancel' (Nat.le_trans hstart hle)]
      rw [List.foldr_cons, hrec, apply, leftToRight, hdrop,
        List.take_append_of_le_length (by omega), List.take_take, Nat.min_eq_left hle, htake,
        List.drop_left' hprefix]
      simp only [List.append_assoc]

/-- Carrying out the edits from the last to the first puts the text together from left to right. -/
theorem applyAll_ascending {s : Text} {edits : List Edit} (h : Ascending s edits) :
    applyAll edits s = leftToRight 0 s edits := by
  rw [applyAll, mergeSort_ascending h.order, List.foldl_reverse,
    foldr_apply h (fun e _ => Nat.zero_le e.start)]
  rfl

/-- What stands behind the last edit is left alone. -/
theorem suffix_leftToRight {s : Text} {edits : List Edit} (h : Ascending s edits) {e : Edit}
    (he : edits.getLast? = some e) {position : Nat} (hpos : ∀ f ∈ edits, position ≤ f.stop) :
    s.drop e.stop <:+ leftToRight position (s.drop position) edits := by
  induction edits generalizing position with
  | nil => cases he
  | cons f fs ih =>
      obtain ⟨hfs, htail⟩ := List.pairwise_cons.mp h.order
      have hdrop : (s.drop position).drop (f.stop - position) = s.drop f.stop := by
        rw [List.drop_drop, Nat.add_sub_cancel' (hpos f List.mem_cons_self)]
      rw [leftToRight, hdrop]
      refine List.IsSuffix.trans ?_ (List.suffix_append _ _)
      cases fs with
      | nil =>
          obtain rfl := Option.some.inj he
          exact List.suffix_refl _
      | cons g gs =>
          refine ih ⟨htail, fun k hk => h.inside k (List.mem_cons_of_mem f hk)⟩ he ?_
          intro k hk
          have hbehind := (hfs k hk).1
          have hinside := (h.inside k (List.mem_cons_of_mem f hk)).1
          exact Nat.le_trans hbehind hinside

end Crosscheck.Edit
