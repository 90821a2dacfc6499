import Crosscheck.Text.Blank
import Mathlib.Data.List.DropRight
/-!
# What trimming leaves

Trimming a text leaves a part of it that begins and ends with no blank. Nothing is left just of a blank
text, and the whole text just if it was trimmed before.
-/

namespace Crosscheck.Text

variable {c : Char} {s t : Text}

theorem trimStart_of_head? (h : ∀ c ∈ s.head?, isBlank c = false) : trimStart s = s := by
  cases s with
  | nil => rfl
  | cons c s =>
      have hc : isBlank c = false := h c rfl
      simp [trimStart, hc]

theorem head?_trimStart (s : Text) : ∀ c ∈ (trimStart s).head?, isBlank c = false := by
  intro c hc
  have hhead := List.head?_dropWhile_not isBlank s
  rw [Option.mem_def, trimStart] at hc
  rwa [hc] at hhead

theorem trimEnd_isPrefix (s : Text) : trimEnd s <+: s := by
  have hsuffix := List.dropWhile_suffix isBlank (l := s.reverse)
  have hprefix := List.reverse_prefix.mpr hsuffix
  rwa [List.reverse_reverse] at hprefix

theorem head?_trim (s : Text) : ∀ c ∈ (trim s).head?, isBlank c = false := by
  intro c hc
  obtain ⟨rest, hrest⟩ := trimEnd_isPrefix (trimStart s)
  have hhead : (trimStart s).head? = some c := by
    rw [← hrest, List.head?_append]
    exact congrArg (Option.or · rest.head?) hc
  exact head?_trimStart s c hhead

theorem trim_trim (s : Text) : trim (trim s) = trim s := by
  have hstart : trimStart (trim s) = trim s := trimStart_of_head? (head?_trim s)
  have hend : trimEnd (trimEnd (trimStart s)) = trimEnd (trimStart s) := by
    have htwice := List.dropWhile_idempotent isBlank (trimStart s).reverse
    rw [trimEnd, trimEnd, List.reverse_reverse, htwice]
  rw [trim, hstart, trim, hend]

theorem trim_sublist (s : Text) : (trim s).Sublist s := by
  have hstart : (trimStart s).Sublist s := List.dropWhile_sublist _
  exact (trimEnd_isPrefix (trimStart s)).sublist.trans hstart

/-- A character that is not blank is left. -/
theorem mem_trim (hc : isBlank c = false) (h : c ∈ s) : c ∈ trim s := by
  have kept {t : Text} (h : c ∈ t) : c ∈ t.dropWhile isBlank := by
    rw [← List.takeWhile_append_dropWhile (p := isBlank) (l := t), List.mem_append] at h
    refine h.resolve_left fun hbefore => ?_
    rw [List.mem_takeWhile_imp hbefore] at hc
    cases hc
  rw [trim, trimEnd, List.mem_reverse]
  exact kept (List.mem_reverse.mpr (kept h))

theorem trim_eq_nil_iff : trim s = [] ↔ isBlankText s := by
  constructor
  · intro h
    rw [isBlankText, List.all_eq_true]
    intro c hc
    rw [← Bool.not_eq_false]
    intro hblank
    simpa [h] using mem_trim hblank hc
  · intro h
    rw [isBlankText, List.all_eq_true] at h
    have hstart : trimStart s = [] := List.dropWhile_eq_nil_iff.mpr h
    rw [trim, hstart]
    rfl

/-- A text begins what is left of it only if nothing was taken off. -/
theorem prefix_trim_iff : s <+: trim s ↔ trim s = s := by
  constructor
  · intro h
    exact (h.sublist.antisymm (trim_sublist s)).symm
  · intro h
    exact ⟨[], by rw [List.append_nil, h]⟩

/-! ## Blanks at the ends -/

@[simp] theorem isBlankText_append (s t : Text) : isBlankText (s ++ t) = (isBlankText s && isBlankText t) :=
  List.all_append

theorem trim_append_blank (ht : isBlankText t) (s : Text) : trim (s ++ t) = trim s := by
  have hall := List.all_eq_true.mp ht
  have hnone : trimStart t = [] := List.dropWhile_eq_nil_iff.mpr hall
  have hend (u : Text) : trimEnd (u ++ t) = trimEnd u := by
    rw [trimEnd, List.reverse_append, List.dropWhile_append_of_pos (by simpa using hall), ← trimEnd]
  rw [trim, trimStart, List.dropWhile_append]
  split
  · next hblank =>
    rw [List.isEmpty_iff] at hblank
    rw [trim, trimStart, hblank, ← trimStart, hnone]
  · rw [hend]
    rfl

end Crosscheck.Text
