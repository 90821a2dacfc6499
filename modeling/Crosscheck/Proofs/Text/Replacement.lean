import Crosscheck.Text.Replace
import Mathlib.Data.List.Basic
/-!
# Replacing occurrences

Replacing goes from occurrence to occurrence. A text without one stays as it is.
-/

namespace Crosscheck.Text

variable {part by_ s t : Text}

theorem replaceFrom_nil (skip : Nat) : replaceFrom part by_ skip [] = [] := by
  cases skip <;> rfl

theorem replaceFrom_length (u s : Text) :
    replaceFrom part by_ u.length (u ++ s) = replaceFrom part by_ 0 s := by
  induction u with
  | nil => rfl
  | cons c u ih => exact ih

/-- An occurrence is replaced and passed over. -/
theorem replaceFrom_part (hpart : part ≠ []) (s : Text) :
    replaceFrom part by_ 0 (part ++ s) = by_ ++ replaceFrom part by_ 0 s := by
  obtain ⟨c, u, rfl⟩ := List.exists_cons_of_ne_nil hpart
  have hlead : (c :: u).isPrefixOf (c :: (u ++ s)) :=
    List.isPrefixOf_iff_prefix.mpr (List.prefix_append (c :: u) s)
  rw [List.cons_append, replaceFrom, if_pos hlead, List.length_cons, Nat.add_sub_cancel,
    replaceFrom_length]

/-- A character with which no occurrence starts is kept. -/
theorem replaceFrom_keep {c : Char} (h : ¬ part <+: c :: s) :
    replaceFrom part by_ 0 (c :: s) = c :: replaceFrom part by_ 0 s := by
  rw [replaceFrom, if_neg (mt List.isPrefixOf_iff_prefix.mp h)]

/-- What stands before a possible start of an occurrence is kept. -/
theorem replaceFrom_append {c : Char} (hpart : part.head? = some c) {u : Text} (hu : c ∉ u) (s : Text) :
    replaceFrom part by_ 0 (u ++ s) = u ++ replaceFrom part by_ 0 s := by
  induction u with
  | nil => rfl
  | cons d u ih =>
      rw [List.mem_cons, not_or] at hu
      rw [List.cons_append, replaceFrom_keep, ih hu.2, List.cons_append]
      intro h
      obtain ⟨v, rfl⟩ := List.head?_eq_some_iff.mp hpart
      exact hu.1 (List.cons_prefix_cons.mp h).1

theorem replaceAll_eq (hpart : part ≠ []) (s : Text) :
    replaceAll part by_ s = replaceFrom part by_ 0 s := by
  rw [replaceAll, if_neg (by simpa using hpart)]

/-- A text either has no occurrence, and is kept, or there is a first one. -/
theorem replaceFrom_cases (by_ : Text) (hpart : part ≠ []) (s : Text) :
    (occursIn part s = false ∧ replaceFrom part by_ 0 s = s) ∨
      (occursIn part s ∧ ∃ u t, s = u ++ (part ++ t) ∧ occursIn part u = false ∧
        replaceFrom part by_ 0 s = u ++ (by_ ++ replaceFrom part by_ 0 t)) := by
  have hempty : occursIn part [] = false := by simpa [occursIn] using hpart
  induction s with
  | nil => exact .inl ⟨hempty, rfl⟩
  | cons c s ih =>
      by_cases hlead : part <+: c :: s
      · obtain ⟨t, ht⟩ := id hlead
        refine .inr ⟨?_, [], t, ht.symm, hempty, ?_⟩
        · rw [occursIn, List.isPrefixOf_iff_prefix.mpr hlead, Bool.true_or]
        · rw [← ht, replaceFrom_part hpart, List.nil_append]
      · have hno : part.isPrefixOf (c :: s) = false := by
          rwa [← Bool.not_eq_true, List.isPrefixOf_iff_prefix]
        rw [occursIn, hno, Bool.false_or, replaceFrom_keep hlead]
        rcases ih with ⟨hnone, hkeep⟩ | ⟨hsome, u, t, hs, hfirst, hreplace⟩
        · exact .inl ⟨hnone, congrArg (c :: ·) hkeep⟩
        · have hbefore : part.isPrefixOf (c :: u) = false := by
            rw [← Bool.not_eq_true, List.isPrefixOf_iff_prefix]
            intro h
            exact hlead (h.trans ⟨part ++ t, by rw [hs, List.cons_append]⟩)
          refine .inr ⟨hsome, c :: u, t, congrArg (c :: ·) hs, ?_, congrArg (c :: ·) hreplace⟩
          rw [occursIn, hbefore, hfirst, Bool.false_or]

theorem occursIn_iff : occursIn part s ↔ ∃ p q, s = p ++ (part ++ q) := by
  induction s with
  | nil => simp [occursIn]
  | cons c s ih =>
      rw [occursIn, Bool.or_eq_true, List.isPrefixOf_iff_prefix, ih]
      constructor
      · intro h
        rcases h with ⟨q, hq⟩ | ⟨p, q, hs⟩
        · exact ⟨[], q, hq.symm⟩
        · exact ⟨c :: p, q, congrArg (c :: ·) hs⟩
      · intro ⟨p, q, hs⟩
        cases p with
        | nil => exact .inl ⟨q, hs.symm⟩
        | cons d p => exact .inr ⟨p, q, (List.cons.inj hs).2⟩

/-- Every occurrence that is replaced changes the length by as much. -/
theorem length_replaceFrom (by_ : Text) (hpart : part ≠ []) (s : Text) :
    ∃ n, (occursIn part s → 0 < n) ∧
      (replaceFrom part by_ 0 s).length + n * part.length = s.length + n * by_.length := by
  induction hlength : s.length using Nat.strongRecOn generalizing s with
  | ind _ ih =>
      rcases replaceFrom_cases by_ hpart s with ⟨hnone, hkeep⟩ | ⟨-, u, t, rfl, -, hreplace⟩
      · exact ⟨0, by simp [hnone], by rw [hkeep, hlength]; omega⟩
      · have hpos := List.length_pos_iff.mpr hpart
        simp only [List.length_append] at hlength
        obtain ⟨n, -, hn⟩ := ih t.length (by omega) t rfl
        refine ⟨n + 1, fun _ => Nat.succ_pos n, ?_⟩
        simp only [hreplace, List.length_append, Nat.succ_mul]
        omega

theorem length_insertEverywhere (by_ s : Text) :
    (insertEverywhere by_ s).length = s.length + (s.length + 1) * by_.length := by
  induction s with
  | nil => simp [insertEverywhere]
  | cons c s ih =>
      rw [insertEverywhere] at ih
      simp only [insertEverywhere, List.foldr_cons, List.length_append, List.length_cons, ih, Nat.succ_mul]
      omega

theorem occursIn_nil (s : Text) : occursIn [] s := by
  cases s <;> rfl

/-- Replacing by what is no longer makes no text longer. -/
theorem length_replaceAll_le (h : by_.length ≤ part.length) (s : Text) :
    (replaceAll part by_ s).length ≤ s.length := by
  by_cases hpart : part = []
  · have hby : by_.length = 0 := by simpa [hpart] using h
    rw [replaceAll, hpart, List.isEmpty_nil, if_pos rfl, length_insertEverywhere, hby]
    exact Nat.le_refl _
  · obtain ⟨n, -, hn⟩ := length_replaceFrom by_ hpart s
    have hmul := Nat.mul_le_mul_left n h
    rw [replaceAll_eq hpart]
    omega

theorem replaceAll_self (part s : Text) : replaceAll part part s = s := by
  by_cases hpart : part = []
  · rw [replaceAll, hpart, List.isEmpty_nil, if_pos rfl]
    simp [insertEverywhere]
  · rw [replaceAll_eq hpart]
    induction hlength : s.length using Nat.strongRecOn generalizing s with
    | ind _ ih =>
        rcases replaceFrom_cases part hpart s with ⟨-, hkeep⟩ | ⟨-, u, t, rfl, -, hreplace⟩
        · exact hkeep
        · have hpos := List.length_pos_iff.mpr hpart
          simp only [List.length_append] at hlength
          rw [hreplace, ih t.length (by omega) t rfl]

/-- Replacing changes a text just if there is something to be replaced by something else. -/
theorem replaceAll_eq_self_iff :
    replaceAll part by_ s = s ↔ part = by_ ∨ occursIn part s = false := by
  constructor
  · intro h
    by_contra hnot
    rw [not_or, Bool.not_eq_false] at hnot
    obtain ⟨hne, hoccurs⟩ := hnot
    by_cases hpart : part = []
    · have hlength := length_insertEverywhere by_ s
      rw [replaceAll, hpart, List.isEmpty_nil, if_pos rfl] at h
      have hpos := List.length_pos_iff.mpr fun hby => hne (hpart.trans hby.symm)
      have hmul : 0 < (s.length + 1) * by_.length := Nat.mul_pos (Nat.succ_pos _) hpos
      rw [h] at hlength
      omega
    · rw [replaceAll_eq hpart] at h
      obtain ⟨n, hn, hlength⟩ := length_replaceFrom by_ hpart s
      rw [h, Nat.add_left_cancel_iff] at hlength
      have hsame := Nat.eq_of_mul_eq_mul_left (hn hoccurs) hlength
      rcases replaceFrom_cases by_ hpart s with ⟨hnone, -⟩ | ⟨-, u, t, hs, -, hreplace⟩
      · rw [hoccurs] at hnone
        cases hnone
      · have hrest := List.append_cancel_left (hs.symm.trans (h.symm.trans hreplace))
        exact hne (List.append_inj hrest hsame).1
  · rintro (rfl | hnone)
    · exact replaceAll_self part s
    · have hpart : part ≠ [] := by
        rintro rfl
        rw [occursIn_nil] at hnone
        cases hnone
      rw [replaceAll_eq hpart]
      rcases replaceFrom_cases by_ hpart s with ⟨-, hkeep⟩ | ⟨hsome, -⟩
      · exact hkeep
      · rw [hnone] at hsome
        cases hsome

end Crosscheck.Text
