import Crosscheck.Proofs.Text.Pieces
import Crosscheck.Text.Lines
/-!
# Cutting a text into lines

The lines of a text are the texts without newlines that give it when they are joined. There are no more of
them than characters and one, and what stands behind the last newline is the last line.
-/

namespace Crosscheck.Text

variable {c : Char} {s t line : Text} {ls : List Text} {i : Nat}

theorem splitLines_ne_nil (s : Text) : splitLines s ≠ [] := splitWhen_ne_nil _ s

theorem splitLines_of_not_mem (h : '\n' ∉ s) : splitLines s = [s] :=
  splitWhen_of_forall_not fun c hc => by
    rintro hnewline
    rw [decide_eq_true_eq] at hnewline
    exact h (hnewline ▸ hc)

/-- What stands behind a newline is cut by itself. -/
theorem splitLines_append_newline (s t : Text) :
    splitLines (s ++ '\n' :: t) = splitLines s ++ splitLines t :=
  splitWhen_append_sep (by simp) s t

theorem not_mem_of_mem_splitLines (h : line ∈ splitLines s) : '\n' ∉ line :=
  fun hnewline => not_sep_of_mem_splitWhen h '\n' hnewline (by simp)

theorem length_splitLines_le (s : Text) : (splitLines s).length ≤ s.length + 1 :=
  length_splitWhen_le _ s

/-! ## How many lines there are -/

theorem joinLines_append_singleton (h : ls ≠ []) (line : Text) :
    joinLines (ls ++ [line]) = joinLines ls ++ '\n' :: line := by
  simp [joinLines, join_append_singleton h]

/-- An end of a text that holds a newline holds the last line. -/
theorem exists_of_suffix (h : t <:+ s ++ '\n' :: line) (hline : '\n' ∉ line) (ht : '\n' ∈ t) :
    ∃ u, t = u ++ '\n' :: line := by
  rcases List.suffix_or_suffix_of_suffix h (List.suffix_append s ('\n' :: line)) with hshort | ⟨u, hlong⟩
  · rcases List.suffix_cons_iff.mp hshort with rfl | hsuffix
    · exact ⟨[], rfl⟩
    · exact absurd (hsuffix.subset ht) hline
  · exact ⟨u, hlong.symm⟩

end Crosscheck.Text
