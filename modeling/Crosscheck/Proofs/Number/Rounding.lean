import Crosscheck.Proofs.Number.Exactness
import Mathlib.Data.Int.Log
import Mathlib.Data.Rat.Floor
/-!
# Rounding a quotient to a magnitude

Which magnitude is nearest to a quotient depends on its value alone. A magnitude is the one nearest to its
own value, and integers of 64 bits are rounded to integers of 64 bits.
-/

namespace Crosscheck.Magnitude

variable {num den : Nat} {x : Magnitude} {e : Int}

theorem powerOfTwo_fst_pos (e : Int) : 0 < (powerOfTwo e).1 := by
  cases e with
  | ofNat n => exact Nat.two_pow_pos n
  | negSucc n => exact Nat.one_pos

theorem mul_powerOfTwo_le (hden : 0 < den) (e : Int) :
    den * (powerOfTwo e).1 ≤ num * (powerOfTwo e).2 ↔ (2 : ℚ) ^ e ≤ num / den := by
  have hden : (0 : ℚ) < den := Nat.cast_pos.mpr hden
  have hdown : (0 : ℚ) < (powerOfTwo e).2 := Nat.cast_pos.mpr (powerOfTwo_pos e)
  rw [← powerOfTwo_eq, div_le_div_iff₀ hdown hden, mul_comm den]
  exact_mod_cast Iff.rfl

theorem pow_log2_le {n : Nat} (hn : 0 < n) : (2 : ℚ) ^ (n.log2 : Int) ≤ n := by
  exact_mod_cast Nat.log2_self_le hn.ne'

theorem lt_pow_log2 (n : Nat) : (n : ℚ) < 2 ^ (n.log2 + 1 : Int) := by
  exact_mod_cast Nat.lt_log2_self

theorem pow_le_quotient (hnum : 0 < num) (hden : 0 < den) :
    (2 : ℚ) ^ ((num.log2 : Int) - den.log2 - 1) ≤ num / den := by
  rw [le_div_iff₀ (Nat.cast_pos.mpr hden)]
  calc (2 : ℚ) ^ ((num.log2 : Int) - den.log2 - 1) * den
      ≤ 2 ^ ((num.log2 : Int) - den.log2 - 1) * 2 ^ (den.log2 + 1 : Int) :=
        mul_le_mul_of_nonneg_left (lt_pow_log2 den).le (zpow_nonneg zero_le_two _)
    _ = 2 ^ (num.log2 : Int) := by
        rw [← zpow_add₀ two_ne_zero]
        congr 1
        omega
    _ ≤ num := pow_log2_le hnum

theorem quotient_lt_pow (hden : 0 < den) :
    (num : ℚ) / den < 2 ^ ((num.log2 : Int) - den.log2 + 1) := by
  rw [div_lt_iff₀ (Nat.cast_pos.mpr hden)]
  calc (num : ℚ) < 2 ^ (num.log2 + 1 : Int) := lt_pow_log2 num
    _ = 2 ^ ((num.log2 : Int) - den.log2 + 1) * 2 ^ (den.log2 : Int) := by
        rw [← zpow_add₀ two_ne_zero]
        congr 1
        omega
    _ ≤ 2 ^ ((num.log2 : Int) - den.log2 + 1) * den :=
        mul_le_mul_of_nonneg_left (pow_log2_le hden) (zpow_nonneg zero_le_two _)

/-- The exponent of a quotient is the integer part of its logarithm. -/
theorem floorLog2_eq_log (hnum : 0 < num) (hden : 0 < den) :
    floorLog2 num den = Int.log 2 ((num : ℚ) / den) := by
  have hquotient : (0 : ℚ) < num / den := div_pos (Nat.cast_pos.mpr hnum) (Nat.cast_pos.mpr hden)
  -- the lengths of both numbers leave two candidates
  have hlow : (num.log2 : Int) - den.log2 - 1 ≤ Int.log 2 ((num : ℚ) / den) :=
    (Int.zpow_le_iff_le_log one_lt_two hquotient).mp (pow_le_quotient hnum hden)
  have hhigh : Int.log 2 ((num : ℚ) / den) < (num.log2 : Int) - den.log2 + 1 :=
    (Int.lt_zpow_iff_log_lt one_lt_two hquotient).mp (quotient_lt_pow hden)
  have hdecide : den * (powerOfTwo (num.log2 - den.log2)).1 ≤
      num * (powerOfTwo (num.log2 - den.log2)).2 ↔
        (num.log2 : Int) - den.log2 ≤ Int.log 2 ((num : ℚ) / den) :=
    (mul_powerOfTwo_le hden _).trans (Int.zpow_le_iff_le_log one_lt_two hquotient)
  simp only [floorLog2, hdecide]
  split <;> omega

/-! ## Rounding to a natural number -/

theorem roundQuotient_scale {k : Nat} (hk : 0 < k) (num den : Nat) :
    roundQuotient (k * num) (k * den) = roundQuotient num den := by
  have htwice : 2 * (k * (num % den)) = k * (2 * (num % den)) := Nat.mul_left_comm 2 k _
  simp only [roundQuotient, Nat.mul_div_mul_left _ _ hk, Nat.mul_mod_mul_left, htwice,
    Nat.mul_lt_mul_left hk]

theorem roundQuotient_congr {num' den' : Nat} (hden : 0 < den) (hden' : 0 < den')
    (h : num * den' = num' * den) : roundQuotient num den = roundQuotient num' den' := by
  rw [← roundQuotient_scale hden' num den, ← roundQuotient_scale hden num' den', Nat.mul_comm den' num,
    Nat.mul_comm den num', h, Nat.mul_comm den' den]

theorem roundQuotient_exact (hden : 0 < den) (k : Nat) : roundQuotient (k * den) den = k := by
  simp [roundQuotient, hden]

theorem roundQuotient_le {k : Nat} (h : num ≤ k * den) : roundQuotient num den ≤ k := by
  rcases Nat.eq_zero_or_pos den with rfl | hden
  · simp_all [roundQuotient]
  · have hdiv : num / den ≤ k := Nat.div_le_of_le_mul (by rwa [Nat.mul_comm])
    have hsum := Nat.div_add_mod num den
    rcases hdiv.lt_or_eq with hlt | heq
    · simp only [roundQuotient]
      split_ifs <;> omega
    · have hrest : num % den = 0 := by
        rw [heq] at hsum
        have := Nat.mul_comm k den
        omega
      simp [roundQuotient, hrest, hden, heq]

/-! ## Rounding to a magnitude -/

theorem nearest?_congr {num' den' : Nat} (hden : 0 < den) (hden' : 0 < den')
    (h : (num : ℚ) / den = num' / den') : nearest? num den = nearest? num' den' := by
  have hcross : num * den' = num' * den := by
    rw [div_eq_div_iff (by positivity) (by positivity)] at h
    exact_mod_cast h
  rcases Nat.eq_zero_or_pos num with rfl | hnum
  · have hnum' : num' = 0 := by
      rw [Nat.zero_mul] at hcross
      exact (Nat.mul_eq_zero.mp hcross.symm).resolve_right hden.ne'
    rw [hnum', nearest?, nearest?, if_pos rfl, if_pos rfl]
  · have hnum' : 0 < num' := by
      rw [Nat.pos_iff_ne_zero]
      rintro rfl
      rw [Nat.zero_mul, Nat.mul_eq_zero] at hcross
      omega
    have hlog : floorLog2 num den = floorLog2 num' den' := by
      rw [floorLog2_eq_log hnum hden, floorLog2_eq_log hnum' hden', h]
    have hround (e : Int) : roundQuotient (num * (powerOfTwo e).2) (den * (powerOfTwo e).1) =
        roundQuotient (num' * (powerOfTwo e).2) (den' * (powerOfTwo e).1) := by
      have hup : 0 < (powerOfTwo e).1 := powerOfTwo_fst_pos e
      refine roundQuotient_congr (Nat.mul_pos hden hup) (Nat.mul_pos hden' hup) ?_
      rw [Nat.mul_mul_mul_comm, hcross, Nat.mul_mul_mul_comm]
    simp only [nearest?, hnum.ne', hnum'.ne', if_false, hlog, hround]

/-- The exponent that a magnitude has is the one chosen for its value. -/
theorem exponent_of_value (hnum : 0 < num) (hden : 0 < den) (h : (num : ℚ) / den = x.value) :
    max (-1074) (floorLog2 num den - 52) = x.exponent := by
  obtain ⟨-, hleast, -, -⟩ := x.canonical
  have hquotient : (0 : ℚ) < num / den := div_pos (Nat.cast_pos.mpr hnum) (Nat.cast_pos.mpr hden)
  have hhigh : Int.log 2 ((num : ℚ) / den) < x.exponent + 53 := by
    rw [← Int.lt_zpow_iff_log_lt one_lt_two hquotient, h, zpow_add₀ (by norm_num), mul_comm]
    exact value_lt le_rfl
  rw [floorLog2_eq_log hnum hden]
  -- at the least exponent the mantissa may be small, and its logarithm does not count
  by_cases hsubnormal : x.exponent = -1074
  · omega
  · have hlow : x.exponent + 52 ≤ Int.log 2 ((num : ℚ) / den) := by
      rw [← Int.zpow_le_iff_le_log one_lt_two hquotient, h, zpow_add₀ (by norm_num), mul_comm]
      exact le_value le_rfl (by omega)
    omega

/-- On the grid of its exponent, a magnitude is its mantissa. -/
theorem mantissa_of_value (hden : 0 < den) (h : (num : ℚ) / den = x.value) :
    roundQuotient (num * (powerOfTwo x.exponent).2) (den * (powerOfTwo x.exponent).1) =
      x.mantissa := by
  have hdenQ : (den : ℚ) ≠ 0 := Nat.cast_ne_zero.mpr hden.ne'
  have hdown : ((powerOfTwo x.exponent).2 : ℚ) ≠ 0 :=
    Nat.cast_ne_zero.mpr (powerOfTwo_pos x.exponent).ne'
  have hexact : num * (powerOfTwo x.exponent).2 =
      x.mantissa * (den * (powerOfTwo x.exponent).1) := by
    rw [value, ← powerOfTwo_eq, div_eq_iff hdenQ] at h
    have hscaled : (num : ℚ) * (powerOfTwo x.exponent).2 =
        x.mantissa * (den * (powerOfTwo x.exponent).1) := by
      rw [h]
      field_simp
    exact_mod_cast hscaled
  rw [hexact, roundQuotient_exact (Nat.mul_pos hden (powerOfTwo_fst_pos x.exponent))]

@[simp] theorem value_zero : zero.value = 0 := by simp [value, zero]

theorem eq_zero_of_value (h : x.value = 0) : x = zero := by
  obtain ⟨-, -, -, hnormal⟩ := x.canonical
  have hmantissa : x.mantissa = 0 := by
    rw [value, mul_eq_zero] at h
    exact_mod_cast h.resolve_right (zpow_ne_zero _ two_ne_zero)
  have hexponent : x.exponent = -1074 := hnormal.resolve_left (by omega)
  cases x
  simp_all [zero]

theorem nearest?_of_value (hden : 0 < den) (h : (num : ℚ) / den = x.value) :
    nearest? num den = some x := by
  rcases Nat.eq_zero_or_pos num with rfl | hnum
  · have hzero : x.value = 0 := by rw [← h, Nat.cast_zero, zero_div]
    rw [eq_zero_of_value hzero, nearest?, if_pos rfl]
  · have hne : x.mantissa ≠ 9007199254740992 := x.canonical.1.ne
    simp only [nearest?, hnum.ne', if_false, exponent_of_value hnum hden h, mantissa_of_value hden h, hne]
    exact dif_pos x.canonical

theorem value_of_of? {m : Nat} (h : of? m e = some x) : x.value = m * 2 ^ e := by
  rw [of?] at h
  split at h
  · rw [← Option.some.inj h, value]
  · cases h

/-- The value of the nearest magnitude, on the grid of its exponent. -/
theorem value_of_nearest? (hnum : 0 < num) (h : nearest? num den = some x) :
    ∃ e : Int, e = max (-1074) (floorLog2 num den - 52) ∧
      x.value = roundQuotient (num * (powerOfTwo e).2) (den * (powerOfTwo e).1) * 2 ^ e := by
  refine ⟨_, rfl, ?_⟩
  simp only [nearest?, hnum.ne', if_false] at h
  split at h
  · next htop =>
    rw [value_of_of? h, htop, zpow_add_one₀ two_ne_zero]
    norm_num
    ring
  · exact value_of_of? h

theorem floorLog2_lt {n : Nat} (hpos : 0 < n) (hn : n ≤ 2 ^ 63) : floorLog2 n 1 < 64 := by
  have hquotient : (0 : ℚ) < (n : ℚ) / (1 : Nat) := by positivity
  have hnQ : (n : ℚ) ≤ 2 ^ 63 := by exact_mod_cast hn
  rw [floorLog2_eq_log hpos Nat.one_pos, ← Int.lt_zpow_iff_log_lt one_lt_two hquotient]
  norm_num at hnQ ⊢
  linarith

/-- The magnitude nearest to a natural number up to 2 ^ 63 is such a number. -/
theorem exists_natural_of_nearest? {n : Nat} (hn : n ≤ 2 ^ 63) (h : nearest? n 1 = some x) :
    ∃ k : Nat, x.value = k ∧ k ≤ 2 ^ 63 := by
  rcases Nat.eq_zero_or_pos n with rfl | hpos
  · rw [nearest?, if_pos rfl] at h
    refine ⟨0, ?_, Nat.zero_le _⟩
    rw [← Option.some.inj h, value_zero, Nat.cast_zero]
  · obtain ⟨e, he, hvalue⟩ := value_of_nearest? hpos h
    cases e with
    | negSucc k =>
        -- the grid is finer than the integers
        refine ⟨n, ?_, hn⟩
        have hexact : roundQuotient (n * Nat.pow 2 (k + 1)) (1 * 1) = n * 2 ^ (k + 1) := by
          simpa using roundQuotient_exact Nat.one_pos (n * 2 ^ (k + 1))
        rw [hvalue, powerOfTwo, hexact, zpow_negSucc, Nat.cast_mul, Nat.cast_pow]
        field_simp
        norm_num
    | ofNat k =>
        have hlog := floorLog2_lt hpos hn
        have hk : k ≤ 63 := by
          rw [Int.ofNat_eq_natCast] at he
          omega
        have hgrid : 2 ^ (63 - k) * 2 ^ k = 2 ^ 63 := by rw [← pow_add, Nat.sub_add_cancel hk]
        have hround : roundQuotient (n * 1) (1 * Nat.pow 2 k) ≤ 2 ^ (63 - k) := by
          refine roundQuotient_le ?_
          rwa [Nat.mul_one, Nat.one_mul, Nat.pow_eq, hgrid]
        refine ⟨roundQuotient (n * 1) (1 * Nat.pow 2 k) * 2 ^ k, ?_, ?_⟩
        · rw [hvalue, powerOfTwo, Nat.cast_mul, Nat.cast_pow]
          rfl
        · exact (Nat.mul_le_mul_right _ hround).trans hgrid.le

end Crosscheck.Magnitude
