import Crosscheck.Json.Reader
import Crosscheck.Json.Writer
/-!
# Strings as they are written

A character is read back from what stands for it in a string, whatever follows.
-/

namespace Crosscheck.Json

variable {c : Char} {s rest : Text}

/-- The escape of a control character ends in two digits that stand for it. -/
theorem exists_hex2 {n : Nat} (hn : n < 32) : ∃ a b, hex2 n = [a, b] ∧ hex4? '0' '0' a b = some n := by
  have hall : ∀ n < 32, hex2 n = [(hex2 n).headD '0', (hex2 n).getLastD '0'] ∧
      hex4? '0' '0' ((hex2 n).headD '0') ((hex2 n).getLastD '0') = some n := by decide
  exact ⟨_, _, hall n hn⟩

theorem readUnits_short {e : Char} {n : Nat} (he : shortEscape? e = some n) (s : Text) :
    readUnits ('\\' :: e :: s) = (readUnits s).map fun found => (n :: found.1, found.2) := by
  have hu : e ≠ 'u' := by
    rintro rfl
    cases he
  rw [readUnits]
  · rw [he]
    cases readUnits s <;> rfl
  · intro a b c d rest h
    exact absurd h hu

theorem readUnits_control {n : Nat} (hn : n < 32) (s : Text) :
    readUnits (['\\', 'u', '0', '0'] ++ hex2 n ++ s) =
      (readUnits s).map fun found => (n :: found.1, found.2) := by
  obtain ⟨a, b, hdigits, hvalue⟩ := exists_hex2 hn
  simp only [hdigits, List.cons_append, List.nil_append, readUnits, hvalue]
  cases readUnits s <;> rfl

theorem readUnits_plain (hquote : c ≠ '"') (hslash : c ≠ '\\') (hcontrol : ¬ c.toNat < 32) (s : Text) :
    readUnits (c :: s) = (readUnits s).map fun found => (c.toNat :: found.1, found.2) := by
  rw [readUnits, if_neg hcontrol]
  · cases readUnits s <;> rfl
  · exact hquote
  · intro _ _ _ _ _ h
    exact absurd h hslash
  · intro _ _ h
    exact absurd h hslash

theorem readUnits_escapeChar (c : Char) (s : Text) : readUnits (escapeChar c ++ s) =
    (readUnits s).map fun found => (c.toNat :: found.1, found.2) := by
  by_cases hquote : c = '"'
  · subst hquote
    exact readUnits_short (by decide) s
  by_cases hslash : c = '\\'
  · subst hslash
    exact readUnits_short (by decide) s
  by_cases hn : c = '\n'
  · subst hn
    exact readUnits_short (by decide) s
  by_cases hr : c = '\r'
  · subst hr
    exact readUnits_short (by decide) s
  by_cases ht : c = '\t'
  · subst ht
    exact readUnits_short (by decide) s
  by_cases hb : c = '\x08'
  · subst hb
    exact readUnits_short (by decide) s
  by_cases hf : c = '\x0c'
  · subst hf
    exact readUnits_short (by decide) s
  simp only [escapeChar, hquote, hslash, hn, hr, ht, hb, hf, if_false]
  split
  · next hcontrol => exact readUnits_control hcontrol s
  · next hcontrol => exact readUnits_plain hquote hslash hcontrol s

theorem ofUnits?_map_toNat (s : Text) : ofUnits? (s.map Char.toNat) = some s := by
  induction s with
  | nil => rfl
  | cons c s ih =>
      have hc : c.toNat.isValidChar := c.valid
      cases s with
      | nil => simp [ofUnits?, hc]
      | cons d s =>
          simp only [List.map_cons] at ih ⊢
          simp [ofUnits?, hc, ih]

/-- The content of a string is read back, whatever follows its closing quote. -/
theorem readString_write (s rest : Text) :
    readString (s.flatMap escapeChar ++ '"' :: rest) = some (some s, rest) := by
  have hunits : readUnits (s.flatMap escapeChar ++ '"' :: rest) = some (s.map Char.toNat, rest) := by
    induction s with
    | nil => simp [readUnits]
    | cons c s ih => simp [readUnits_escapeChar, ih]
  simp [readString, hunits, ofUnits?_map_toNat]

end Crosscheck.Json
