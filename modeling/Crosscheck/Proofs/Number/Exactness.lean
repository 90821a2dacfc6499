import Crosscheck.Number.Double
import Mathlib.Algebra.Order.Field.Rat
import Mathlib.Data.Nat.Cast.Field
import Mathlib.Tactic.FieldSimp
import Mathlib.Tactic.Linarith
import Mathlib.Tactic.NormNum
import Mathlib.Tactic.Positivity
import Mathlib.Tactic.Ring
/-!
# The exact values of doubles

A finite double is a rational number. Equality and conversion to an integer are those of rationals, and
an integer of 64 bits that does not fit a signed one is rounded to a multiple of 2048.
-/

namespace Crosscheck

namespace Magnitude

/-- The exact value. -/
def value (x : Magnitude) : ℚ := x.mantissa * 2 ^ x.exponent

theorem powerOfTwo_pos (e : Int) : 0 < (powerOfTwo e).2 := by
  cases e with
  | ofNat n => exact Nat.one_pos
  | negSucc n => exact Nat.two_pow_pos (n + 1)

theorem powerOfTwo_eq (e : Int) : ((powerOfTwo e).1 : ℚ) / (powerOfTwo e).2 = 2 ^ e := by
  cases e with
  | ofNat n => simp [powerOfTwo]
  | negSucc n => simp [powerOfTwo, zpow_negSucc]

theorem ratio_eq (x : Magnitude) : (x.ratio.1 : ℚ) / x.ratio.2 = x.value := by
  rw [value, ← powerOfTwo_eq]
  simp only [ratio, Nat.cast_mul]
  ring

private theorem pow_toNat {e : Int} {n : Nat} (h : -(n : Int) ≤ e) :
    (2 : ℚ) ^ (e + n).toNat = 2 ^ e * 2 ^ n := by
  have hexp : ((e + n).toNat : Int) = e + n := by omega
  rw [← zpow_natCast, hexp, zpow_add₀ two_ne_zero, zpow_natCast]

theorem units_eq (x : Magnitude) : (x.units : ℚ) = x.value * 2 ^ (1074 : Nat) := by
  obtain ⟨-, hlow, -, -⟩ := x.canonical
  have hpow : (2 : ℚ) ^ (x.exponent + 1074).toNat = 2 ^ x.exponent * 2 ^ (1074 : Nat) :=
    pow_toNat hlow
  simp only [units, value, Nat.pow_eq, Nat.cast_mul, Nat.cast_pow, Nat.cast_ofNat, hpow, mul_assoc]

/-! ## Rounding to multiples of 2048 -/

theorem roundQuotient_mem {n : Nat} (hlow : 2 ^ 63 ≤ n) (hhigh : n < 2 ^ 64) :
    2 ^ 52 ≤ roundQuotient n 2048 ∧ roundQuotient n 2048 ≤ 2 ^ 53 := by
  unfold roundQuotient
  simp only
  split_ifs <;> omega

theorem roundQuotient_mul (k : Nat) : roundQuotient (2048 * k) 2048 = k := by
  simp [roundQuotient]

theorem le_of_roundQuotient_eq {n : Nat} (h : roundQuotient n 2048 = 2 ^ 52) :
    n ≤ 2 ^ 63 + 1024 := by
  unfold roundQuotient at h
  simp only at h
  split_ifs at h <;> omega

/-- Another number is rounded to the same multiple. -/
theorem exists_roundQuotient_eq {n : Nat} (hlow : 2 ^ 63 ≤ n) (hhigh : n < 2 ^ 64) :
    ∃ k, k ≠ n ∧ 2 ^ 63 ≤ k ∧ k < 2 ^ 64 ∧ roundQuotient k 2048 = roundQuotient n 2048 := by
  unfold roundQuotient
  simp only
  -- the next number unless `n` is the last one that is rounded to its multiple
  by_cases hnext : n % 2048 = 0 ∨ n % 2048 = 1024 ∧ n / 2048 % 2 = 1 ∨
      1024 < n % 2048 ∧ n % 2048 < 2047
  · refine ⟨n + 1, by omega, by omega, by omega, ?_⟩
    split_ifs <;> omega
  · refine ⟨n - 1, by omega, by omega, by omega, ?_⟩
    split_ifs <;> omega

theorem floorLog2_eq {n : Nat} (hlow : 2 ^ 63 ≤ n) (hhigh : n < 2 ^ 64) : floorLog2 n 1 = 63 := by
  have hlog : n.log2 = 63 := (Nat.log2_eq_iff (by omega)).mpr ⟨hlow, hhigh⟩
  have hone : Nat.log2 1 = 0 := by decide
  have hpower : powerOfTwo 63 = (2 ^ 63, 1) := by decide
  simp only [floorLog2, hlog, hone]
  norm_num [hpower]
  exact hlow

/-- Past the signed integers of 64 bits, an unsigned one is rounded to a multiple of 2048. -/
theorem nearest?_eq {n : Nat} (hlow : 2 ^ 63 ≤ n) (hhigh : n < 2 ^ 64) :
    ∃ x, nearest? n 1 = some x ∧ x.value = 2048 * roundQuotient n 2048 := by
  obtain ⟨hleast, hmost⟩ := roundQuotient_mem hlow hhigh
  have hpower : powerOfTwo 11 = (2048, 1) := by decide
  have hexponent : max (-1074) (floorLog2 n 1 - 52) = 11 := by
    rw [floorLog2_eq hlow hhigh]
    decide
  have hne : n ≠ 0 := by omega
  simp only [nearest?, hne, if_false, hexponent, hpower, Nat.mul_one, Nat.one_mul]
  split
  · next htop =>
    have hcanonical : IsCanonical 4503599627370496 (11 + 1) := by decide
    refine ⟨_, dif_pos hcanonical, ?_⟩
    rw [value, htop]
    norm_num
  · next hbelow =>
    have hcanonical : IsCanonical (roundQuotient n 2048) 11 := by
      refine ⟨?_, by decide, by decide, .inl hleast⟩
      omega
    refine ⟨_, dif_pos hcanonical, ?_⟩
    rw [value]
    norm_num [mul_comm]

/-! ## Which values there are around 2 ^ 63 -/

theorem value_lt {x : Magnitude} {e : Int} (h : x.exponent ≤ e) : x.value < 2 ^ 53 * 2 ^ e := by
  have hmantissa : (x.mantissa : ℚ) < 2 ^ 53 := by exact_mod_cast x.canonical.1
  have hpower : (2 : ℚ) ^ x.exponent ≤ 2 ^ e := zpow_le_zpow_right₀ one_le_two h
  calc x.value < 2 ^ 53 * 2 ^ x.exponent :=
        mul_lt_mul_of_pos_right hmantissa (zpow_pos two_pos _)
    _ ≤ 2 ^ 53 * 2 ^ e := mul_le_mul_of_nonneg_left hpower (by norm_num)

theorem le_value {x : Magnitude} {e : Int} (h : e ≤ x.exponent) (he : -1074 < e) :
    2 ^ 52 * 2 ^ e ≤ x.value := by
  have hnormal : 4503599627370496 ≤ x.mantissa := by
    rcases x.canonical.2.2.2 with hm | hx
    · exact hm
    · omega
  have hmantissa : (2 ^ 52 : ℚ) ≤ x.mantissa := by exact_mod_cast hnormal
  have hpower : (2 : ℚ) ^ e ≤ 2 ^ x.exponent := zpow_le_zpow_right₀ one_le_two h
  exact mul_le_mul hmantissa hpower (zpow_nonneg zero_le_two _) (Nat.cast_nonneg _)

/-- The values from 2 ^ 63 on are multiples of 2048, as far as 2 ^ 64. -/
theorem exists_multiple {x : Magnitude} (hlow : 2 ^ 63 ≤ x.value) (hhigh : x.value < 2 ^ 64) :
    ∃ k : Nat, x.value = (2048 * k : Nat) := by
  have habove : 10 < x.exponent := by
    by_contra h
    have hlt := value_lt (x := x) (e := 10) (by omega)
    norm_num at hlt hlow
    linarith
  have hbelow : x.exponent < 12 := by
    by_contra h
    have hle := le_value (x := x) (e := 12) (by omega) (by decide)
    norm_num at hle hhigh
    linarith
  have hexponent : x.exponent = 11 := by omega
  refine ⟨x.mantissa, ?_⟩
  rw [value, hexponent]
  norm_num [mul_comm]

/-- There are no values just below 2 ^ 63. -/
theorem value_gap {x : Magnitude} (h : 2 ^ 63 - 1 ≤ x.value) : 2 ^ 63 ≤ x.value := by
  have habove : 9 < x.exponent := by
    by_contra hx
    have hlt := value_lt (x := x) (e := 9) (by omega)
    norm_num at hlt h
    linarith
  by_cases hexponent : x.exponent = 10
  · rw [value, hexponent] at h ⊢
    norm_num at h ⊢
    have hmantissa : 9223372036854775807 ≤ x.mantissa * 1024 := by exact_mod_cast h
    have hround : 9223372036854775808 ≤ x.mantissa * 1024 := by omega
    exact_mod_cast hround
  · have hle := le_value (x := x) (e := 11) (by omega) (by decide)
    norm_num at hle ⊢
    exact hle

end Magnitude

namespace Double

/-- The number is neither infinite nor no number at all. -/
def IsFinite (d : Double) : Prop := ∃ negative x, d = .finite negative x

/-- The exact value of a finite double. -/
def value : Double → ℚ
  | .finite negative x => if negative then -x.value else x.value
  | _ => 0

theorem signedUnits_eq (negative : Bool) (x : Magnitude) :
    (signedUnits negative x : ℚ) = (finite negative x).value * 2 ^ (1074 : Nat) := by
  have hunits := x.units_eq
  cases negative with
  | false => simpa [signedUnits, value] using hunits
  | true => simp [signedUnits, value, hunits]

/-- Finite doubles are equal exactly if their values are. -/
theorem equals_iff {d e : Double} (hd : d.IsFinite) (he : e.IsFinite) :
    d.equals e ↔ d.value = e.value := by
  obtain ⟨s, x, rfl⟩ := hd
  obtain ⟨t, y, rfl⟩ := he
  have hpos : (2 : ℚ) ^ (1074 : Nat) ≠ 0 := pow_ne_zero _ two_ne_zero
  rw [equals, beq_iff_eq, ← mul_left_inj' hpos, ← signedUnits_eq, ← signedUnits_eq]
  exact Int.cast_inj.symm

/-- A finite double is converted to the integer that it is equal to. -/
theorem toInt?_eq_some {d : Double} (hd : d.IsFinite) {i : Int} :
    d.toInt? = some i ↔ d.value = i := by
  obtain ⟨s, x, rfl⟩ := hd
  have hden : 0 < x.ratio.2 := Magnitude.powerOfTwo_pos x.exponent
  have hpos : (x.ratio.2 : ℚ) ≠ 0 := Nat.cast_ne_zero.mpr hden.ne'
  have hvalue := x.ratio_eq
  rw [toInt?]
  simp only
  split
  · next hzero =>
    have hq : x.value = ((x.ratio.1 / x.ratio.2 : Nat) : Int) := by
      rw [← hvalue, Int.cast_natCast, Nat.cast_div (Nat.dvd_of_mod_eq_zero hzero) hpos]
    cases s with
    | false => simp only [value, hq, Bool.false_eq_true, if_false, Option.some.injEq, Int.cast_inj]
    | true =>
      simp only [value, hq, if_true, Option.some.injEq]
      rw [← Int.cast_neg, Int.cast_inj]
  · next hrest =>
    refine ⟨fun h => (by cases h), fun h => absurd ?_ hrest⟩
    -- an integral value makes the denominator divide the numerator
    obtain ⟨j, hj⟩ : ∃ j : Int, x.value = j := by
      cases s with
      | false => exact ⟨i, h⟩
      | true =>
        refine ⟨-i, ?_⟩
        rw [Int.cast_neg, ← h]
        simp [value]
    rw [← hvalue, div_eq_iff hpos] at hj
    have hmul : (x.ratio.1 : Int) = j * x.ratio.2 := by exact_mod_cast hj
    have hdvd : (x.ratio.2 : Int) ∣ x.ratio.1 := Dvd.intro_left j hmul.symm
    exact Nat.mod_eq_zero_of_dvd (Int.natCast_dvd_natCast.mp hdvd)

theorem ofInt_eq {i : Int} (hlow : 2 ^ 63 ≤ i) (hhigh : i < 2 ^ 64) : (ofInt i).IsFinite ∧
    (ofInt i).value = 2048 * Magnitude.roundQuotient i.toNat 2048 := by
  have hnat : i.natAbs = i.toNat := by omega
  have hsign : decide (i < 0) = false := decide_eq_false (by omega)
  obtain ⟨x, hx, hvalue⟩ := Magnitude.nearest?_eq (n := i.toNat) (by omega) (by omega)
  rw [ofInt, hnat, hsign, ofQuotient, hx]
  exact ⟨⟨false, x, rfl⟩, hvalue⟩

theorem exists_magnitude {d : Double} (hd : d.IsFinite) (h : 0 < d.value) :
    ∃ x : Magnitude, d.value = x.value := by
  obtain ⟨s, x, rfl⟩ := hd
  cases s with
  | false => exact ⟨x, rfl⟩
  | true =>
    have hneg : (0 : ℚ) ≤ x.value := mul_nonneg (Nat.cast_nonneg _) (zpow_nonneg zero_le_two _)
    simp only [value, if_true] at h
    linarith

/-- The doubles from 2 ^ 63 on are multiples of 2048, as far as 2 ^ 64. -/
theorem exists_multiple {d : Double} (hd : d.IsFinite) (hlow : 2 ^ 63 ≤ d.value)
    (hhigh : d.value < 2 ^ 64) : ∃ k : Nat, d.value = (2048 * k : Nat) := by
  obtain ⟨x, hx⟩ := exists_magnitude hd (lt_of_lt_of_le (by norm_num) hlow)
  rw [hx] at hlow hhigh ⊢
  exact Magnitude.exists_multiple hlow hhigh

/-- There are no doubles just below 2 ^ 63. -/
theorem value_gap {d : Double} (hd : d.IsFinite) (h : 2 ^ 63 - 1 ≤ d.value) : 2 ^ 63 ≤ d.value := by
  obtain ⟨x, hx⟩ := exists_magnitude hd (lt_of_lt_of_le (by norm_num) h)
  rw [hx] at h ⊢
  exact Magnitude.value_gap h

end Double

end Crosscheck
