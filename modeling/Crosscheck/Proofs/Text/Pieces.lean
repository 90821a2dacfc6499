import Crosscheck.Text.Basic
import Mathlib.Data.List.Basic
/-!
# Cutting a text at separators

The pieces of a text are the texts without separators that lie between its separators. There is one more of
them than separators, and a text that is put behind a separator is cut by itself.
-/

namespace Crosscheck.Text

variable {isSep : Char → Bool} {sep : Char} {s t piece : Text} {pieces : List Text}

theorem splitWhen_sep (h : isSep sep) (s : Text) : splitWhen isSep (sep :: s) = [] :: splitWhen isSep s := by
  simp [splitWhen, h]

theorem splitWhen_ne_nil (isSep : Char → Bool) (s : Text) : splitWhen isSep s ≠ [] := by
  cases s with
  | nil => simp [splitWhen]
  | cons c s =>
      simp only [splitWhen]
      split
      · simp
      · split <;> simp

/-- A character that is no separator belongs to the first piece. -/
theorem splitWhen_cons {c : Char} (hc : ¬ isSep c) (h : splitWhen isSep s = piece :: pieces) :
    splitWhen isSep (c :: s) = (c :: piece) :: pieces := by
  simp [splitWhen, hc, h]

theorem splitWhen_of_forall_not (h : ∀ c ∈ s, ¬ isSep c) : splitWhen isSep s = [s] := by
  induction s with
  | nil => rfl
  | cons c s ih =>
      rw [List.forall_mem_cons] at h
      exact splitWhen_cons h.1 (ih h.2)

/-- What stands behind a separator is cut by itself. -/
theorem splitWhen_append_sep (h : isSep sep) (s t : Text) :
    splitWhen isSep (s ++ sep :: t) = splitWhen isSep s ++ splitWhen isSep t := by
  induction s with
  | nil => simp [splitWhen, h]
  | cons c s ih =>
      by_cases hc : isSep c
      · simp [splitWhen_sep hc, ih]
      · obtain ⟨piece, pieces, hs⟩ := List.exists_cons_of_ne_nil (splitWhen_ne_nil isSep s)
        have hst : splitWhen isSep (s ++ sep :: t) = piece :: (pieces ++ splitWhen isSep t) := by
          simp [ih, hs]
        rw [List.cons_append, splitWhen_cons hc hst, splitWhen_cons hc hs, List.cons_append]

theorem not_sep_of_mem_splitWhen (h : piece ∈ splitWhen isSep s) : ∀ c ∈ piece, ¬ isSep c := by
  induction s generalizing piece with
  | nil =>
      simp only [splitWhen, List.mem_singleton] at h
      simp [h]
  | cons c s ih =>
      by_cases hc : isSep c
      · rw [splitWhen_sep hc, List.mem_cons] at h
        rcases h with rfl | h
        · simp
        · exact ih h
      · obtain ⟨first, pieces, hs⟩ := List.exists_cons_of_ne_nil (splitWhen_ne_nil isSep s)
        rw [splitWhen_cons hc hs, List.mem_cons] at h
        rcases h with rfl | h
        · exact List.forall_mem_cons.mpr ⟨hc, ih (by simp [hs])⟩
        · exact ih (by simp [hs, h])

theorem length_splitWhen_le (isSep : Char → Bool) (s : Text) :
    (splitWhen isSep s).length ≤ s.length + 1 := by
  induction s with
  | nil => simp [splitWhen]
  | cons c s ih =>
      by_cases hc : isSep c
      · simpa [splitWhen_sep hc] using ih
      · obtain ⟨piece, pieces, hs⟩ := List.exists_cons_of_ne_nil (splitWhen_ne_nil isSep s)
        rw [splitWhen_cons hc hs]
        rw [hs] at ih
        simp only [List.length_cons] at ih ⊢
        omega

/-- A text is without separators or ends with a separator and a text that has none. -/
theorem exists_last_piece (isSep : Char → Bool) (s : Text) :
    (∀ c ∈ s, ¬ isSep c) ∨
      ∃ t sep piece, s = t ++ sep :: piece ∧ isSep sep ∧ ∀ c ∈ piece, ¬ isSep c := by
  induction s with
  | nil => exact .inl (by simp)
  | cons c s ih =>
      rcases ih with hnone | ⟨t, sep, piece, rfl, hsep, hpiece⟩
      · by_cases hc : isSep c
        · exact .inr ⟨[], c, s, rfl, hc, hnone⟩
        · exact .inl (List.forall_mem_cons.mpr ⟨hc, hnone⟩)
      · exact .inr ⟨c :: t, sep, piece, rfl, hsep, hpiece⟩

/-- What stands before the first of a character is determined. -/
theorem cut_first {ch : Char} {a b x y : Text} (ha : ch ∉ a) (hb : ch ∉ b)
    (h : a ++ ch :: x = b ++ ch :: y) : a = b ∧ x = y := by
  induction a generalizing b with
  | nil =>
      cases b with
      | nil => simpa using h
      | cons d b =>
          obtain ⟨rfl, -⟩ := List.cons.inj h
          exact absurd List.mem_cons_self hb
  | cons d a ih =>
      cases b with
      | nil =>
          obtain ⟨rfl, -⟩ := List.cons.inj h
          exact absurd List.mem_cons_self ha
      | cons e b =>
          obtain ⟨rfl, ht⟩ := List.cons.inj h
          obtain ⟨rfl, rfl⟩ :=
            ih (List.not_mem_of_not_mem_cons ha) (List.not_mem_of_not_mem_cons hb) ht
          exact ⟨rfl, rfl⟩

/-- What stands behind the last of a character is determined. -/
theorem cut_last {ch : Char} {a b x y : Text} (hx : ch ∉ x) (hy : ch ∉ y)
    (h : a ++ ch :: x = b ++ ch :: y) : a = b ∧ x = y := by
  have hr := congrArg List.reverse h
  simp only [List.reverse_append, List.reverse_cons, List.append_assoc, List.singleton_append] at hr
  obtain ⟨hxy, hab⟩ := cut_first (by simpa using hx) (by simpa using hy) hr
  exact ⟨List.reverse_inj.mp hab, List.reverse_inj.mp hxy⟩

theorem join_append_singleton (h : pieces ≠ []) (sep piece : Text) :
    join sep (pieces ++ [piece]) = join sep pieces ++ sep ++ piece := by
  induction pieces with
  | nil => exact absurd rfl h
  | cons first pieces ih =>
      cases pieces with
      | nil => simp [join]
      | cons second pieces =>
          have hrest := ih (by simp)
          simp only [List.cons_append, join] at hrest ⊢
          simp [hrest]

end Crosscheck.Text
