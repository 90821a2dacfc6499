import Crosscheck.Text.Basic
import Crosscheck.Text.WordChar
import Mathlib.Data.List.Induction
import Mathlib.Tactic.Ring
/-!
# Decimal digits

A natural number is written without a leading zero, and its digits stand for it.
-/

namespace Crosscheck.Text

variable {c : Char} {n : Nat} {ds es : Text}

@[simp] theorem natOfDigits_ofNat (n : Nat) : natOfDigits (ofNat n) = n :=
  Nat.ofDigitChars_toDigits (by decide) (by decide)

theorem ofNat_ne_nil (n : Nat) : ofNat n ≠ [] := Nat.toDigits_ne_nil

theorem isAsciiDigit_of_mem_ofNat (h : c ∈ ofNat n) : isAsciiDigit c := by
  have hdigit : c.isDigit := Nat.isDigit_of_mem_toDigits (by decide) (by decide) h
  simp only [Char.isDigit, Bool.and_eq_true, decide_eq_true_eq] at hdigit
  obtain ⟨hlow, hhigh⟩ := hdigit
  have hlow : 48 ≤ c.toNat := hlow
  have hhigh : c.toNat ≤ 57 := hhigh
  simp only [isAsciiDigit, hlow, hhigh, decide_true, Bool.and_self]

/-- Only zero begins with a zero. -/
theorem eq_zero_of_head?_ofNat (h : (ofNat n).head? = some '0') : n = 0 := by
  induction n using Nat.strongRecOn with
  | ind n ih =>
      by_cases hn : n < 10
      · have hdigit : ∀ m < 10, (ofNat m).head? = some '0' → m = 0 := by decide
        exact hdigit n hn h
      · have hsplit : ofNat n = ofNat (n / 10) ++ [(n % 10).digitChar] :=
          Nat.toDigits_of_base_le (by decide) (by omega)
        have hhead : (ofNat (n / 10)).head? = some '0' := by
          rwa [hsplit, List.head?_append, Option.or_of_isSome (by simp [ofNat_ne_nil])] at h
        have hzero := ih (n / 10) (by omega) hhead
        omega

theorem natOfDigits_append (ds es : Text) :
    natOfDigits (ds ++ es) = natOfDigits ds * 10 ^ es.length + natOfDigits es := by
  induction es using List.reverseRecOn with
  | nil => simp [natOfDigits]
  | append_singleton es d ih =>
      have hlast (a : Text) : natOfDigits (a ++ [d]) = 10 * natOfDigits a + (d.toNat - '0'.toNat) := by
        simp [natOfDigits]
      rw [← List.append_assoc, hlast, hlast, ih, List.length_append, List.length_singleton, pow_succ]
      ring

theorem natOfDigits_zeros (n : Nat) : natOfDigits (List.replicate n '0') = 0 := by
  induction n with
  | zero => rfl
  | succ n ih => simpa [List.replicate_succ, natOfDigits] using ih

theorem natOfDigits_zeros_append (n : Nat) (ds : Text) :
    natOfDigits (List.replicate n '0' ++ ds) = natOfDigits ds := by
  rw [natOfDigits_append, natOfDigits_zeros, Nat.zero_mul, Nat.zero_add]

theorem natOfDigits_append_zeros (ds : Text) (n : Nat) :
    natOfDigits (ds ++ List.replicate n '0') = natOfDigits ds * 10 ^ n := by
  rw [natOfDigits_append, natOfDigits_zeros, List.length_replicate, Nat.add_zero]

end Crosscheck.Text
