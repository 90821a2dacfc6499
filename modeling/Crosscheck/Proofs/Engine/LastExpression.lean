import Crosscheck.Engine.Basic
import Crosscheck.Proofs.Text.Lines
import Crosscheck.Proofs.Text.Trimming
/-!
# The last expression

A rehearsed engine looks at the last line that is not blank. Neither blanks around the text nor the form of its
line breaks change what it finds there.
-/

namespace Crosscheck

namespace Text

variable {c : Char} {s t line : Text}

/-- The lines that are not blank, trimmed. -/
def filled (s : Text) : List Text := ((splitLines s).map trim).filter (!·.isEmpty)

theorem trim_dropReturn (line : Text) : trim (dropReturn line) = trim line := by
  rw [dropReturn]
  split
  · next h =>
    obtain ⟨front, rfl⟩ := List.getLast?_eq_some_iff.mp h
    rw [List.dropLast_concat, trim_append_blank (by decide)]
  · rfl

/-- A return before a newline, and a newline at the end, do not count. -/
theorem filter_trim_lines (s : Text) : ((lines s).map trim).filter (!·.isEmpty) = filled s := by
  have hreturn : trim ∘ dropReturn = trim := funext trim_dropReturn
  obtain ⟨earlier, last, hs⟩ := List.eq_nil_or_concat' (splitLines s) |>.resolve_left (splitLines_ne_nil s)
  rw [filled, lines, hs, List.reverse_append]
  simp only [List.reverse_singleton, List.singleton_append, List.reverse_reverse]
  split
  · next hlast =>
    rw [List.isEmpty_iff.mp hlast, List.map_append, List.filter_append, List.map_map, hreturn]
    exact (List.append_nil _).symm
  · rw [List.map_append, List.map_append, List.map_map, hreturn]

theorem filled_append_newline (s t : Text) : filled (s ++ '\n' :: t) = filled s ++ filled t := by
  rw [filled, splitLines_append_newline, List.map_append, List.filter_append, ← filled, ← filled]

theorem filled_of_not_mem (h : '\n' ∉ line) : filled line = [trim line].filter (!·.isEmpty) := by
  rw [filled, splitLines_of_not_mem h, List.map_singleton]

end Text

namespace Engine

variable {s t line : Text}

theorem lastExpression_eq (s : Text) : lastExpression s = (Text.filled s).getLast?.getD [] := by
  rw [lastExpression, ← Text.filter_trim_lines, List.map_reverse, ← List.head?_filter, List.filter_reverse,
    List.head?_reverse]

theorem lastExpression_of_not_mem (h : '\n' ∉ line) : lastExpression line = Text.trim line := by
  rw [lastExpression_eq, Text.filled_of_not_mem h]
  cases hline : Text.trim line with
  | nil => rfl
  | cons c rest => rfl

theorem lastExpression_append (h : '\n' ∉ line) (hline : Text.isBlankText line = false) (s : Text) :
    lastExpression (s ++ '\n' :: line) = Text.trim line := by
  have hne : Text.trim line ≠ [] := mt Text.trim_eq_nil_iff.mp (by simp [hline])
  rw [lastExpression_eq, Text.filled_append_newline, Text.filled_of_not_mem h]
  simp [hne]

end Engine

end Crosscheck
