import Crosscheck.Proofs.Json.Structure
import Mathlib.Data.Rat.Floor
/-!
# What canonicalization keeps of a number

Values compare equal exactly if they have the same structure and what is kept of the numbers at
corresponding places is the same. A number is kept exactly, apart from 2 ^ 63, of which the greatest
integer is left, and from integers past it, which are rounded to multiples of 2048.
-/

namespace Crosscheck

namespace Value

open Json (Number)

/-- The exact value of what a number becomes. -/
def amount : Value → ℚ
  | .integer i => i
  | .float d => d.value
  | _ => 0

/-- What a number can become: an integer of 64 bits, or a finite double that is none. -/
def IsNumeral : Value → Prop
  | .integer i => minInteger ≤ i ∧ i ≤ maxInteger
  | .float d => d.IsFinite ∧ ∀ i : Int, minInteger ≤ i → i ≤ maxInteger → d.value ≠ i
  | _ => False

theorem equals_iff_amount {v w : Value} (hv : v.IsNumeral) (hw : w.IsNumeral) :
    v.equals w ↔ v.amount = w.amount := by
  cases v with
  | integer i =>
      cases w with
      | integer j => simp [equals, amount]
      | float e => simpa [equals, amount] using fun h => hw.2 i hv.1 hv.2 h.symm
      | _ => cases hw
  | float d =>
      cases w with
      | integer j => simpa [equals, amount] using hv.2 j hw.1 hw.2
      | float e => exact Double.equals_iff hv.1 hw.1
      | _ => cases hw
  | _ => cases hv

/-- The greatest integer stands for 2 ^ 63 as well. -/
def capped (q : ℚ) : ℚ := if q = 2 ^ 63 then 2 ^ 63 - 1 else q

theorem capped_of_ne {q : ℚ} (h : q ≠ 2 ^ 63) : capped q = q := if_neg h

theorem capped_intCast {i : Int} (h : i ≤ 2 ^ 63) : capped i = (min i maxInteger : Int) := by
  by_cases hi : i = 2 ^ 63
  · subst hi
    norm_num [capped, maxInteger]
  · have hmin : min i maxInteger = i := by
      simp only [maxInteger]
      omega
    rw [hmin, capped_of_ne]
    exact_mod_cast hi

theorem ofDouble_spec {d : Double} (hd : d.IsFinite) :
    (ofDouble d).IsNumeral ∧ (ofDouble d).amount = capped d.value := by
  cases hint : d.toInt? with
  | none =>
      have hvalue (i : Int) : d.value ≠ i := by
        intro h
        rw [(Double.toInt?_eq_some hd).mpr h] at hint
        cases hint
      have hne : d.value ≠ 2 ^ 63 := by
        have := hvalue (2 ^ 63)
        push_cast at this
        exact this
      have hof : ofDouble d = .float d := by rw [ofDouble, hint]
      rw [hof]
      exact ⟨⟨hd, fun i _ _ => hvalue i⟩, (capped_of_ne hne).symm⟩
  | some i =>
      have hvalue := (Double.toInt?_eq_some hd).mp hint
      by_cases hrange : minInteger ≤ i ∧ i ≤ maxInteger + 1
      · have hof : ofDouble d = .integer (min i maxInteger) := by
          simp only [ofDouble, hint, if_pos hrange]
        simp only [minInteger, maxInteger] at hrange
        rw [hof, hvalue, capped_intCast (by omega)]
        refine ⟨?_, rfl⟩
        simp only [IsNumeral, minInteger, maxInteger]
        omega
      · have hof : ofDouble d = .float d := by
          simp only [ofDouble, hint, if_neg hrange]
        simp only [minInteger, maxInteger] at hrange
        have hne : i ≠ 2 ^ 63 := by omega
        rw [hof, hvalue, capped_of_ne (by exact_mod_cast hne)]
        refine ⟨⟨hd, ?_⟩, hvalue⟩
        intro j hlow hhigh hj
        have hij : i = j := by exact_mod_cast hvalue.symm.trans hj
        simp only [minInteger, maxInteger] at hlow hhigh
        omega

/-- From 2 ^ 63 up to 2 ^ 64, where all numbers are whole, the nearest multiple of 2048. -/
def rounded (q : ℚ) : ℚ :=
  if 2 ^ 63 ≤ q ∧ q < 2 ^ 64 then 2048 * Magnitude.roundQuotient ⌊q⌋.toNat 2048 else q

/-- What is kept of a number of that value. -/
def kept (q : ℚ) : ℚ := capped (rounded q)

theorem rounded_of_lt {q : ℚ} (h : q < 2 ^ 63) : rounded q = q :=
  if_neg fun hq => absurd hq.1 (not_le.mpr h)

theorem rounded_of_le {q : ℚ} (h : 2 ^ 64 ≤ q) : rounded q = q :=
  if_neg fun hq => absurd hq.2 (not_lt.mpr h)

theorem rounded_intCast {i : Int} (hlow : 2 ^ 63 ≤ i) (hhigh : i < 2 ^ 64) :
    rounded i = 2048 * Magnitude.roundQuotient i.toNat 2048 := by
  have hlow' : (2 ^ 63 : ℚ) ≤ i := by exact_mod_cast hlow
  have hhigh' : (i : ℚ) < 2 ^ 64 := by exact_mod_cast hhigh
  rw [rounded, if_pos ⟨hlow', hhigh'⟩, Int.floor_intCast]

/-- Doubles are not rounded. -/
theorem rounded_double {d : Double} (hd : d.IsFinite) : rounded d.value = d.value := by
  by_cases hrange : 2 ^ 63 ≤ d.value ∧ d.value < 2 ^ 64
  · obtain ⟨k, hk⟩ := Double.exists_multiple hd hrange.1 hrange.2
    have hfloor : ⌊d.value⌋.toNat = 2048 * k := by rw [hk, Int.floor_natCast, Int.toNat_natCast]
    rw [rounded, if_pos hrange, hfloor, Magnitude.roundQuotient_mul, hk]
    push_cast
    rfl
  · exact if_neg hrange

/-- What a number becomes, and which value that has. -/
theorem ofNumber_spec {n : Number} (hn : n.WellFormed) :
    (ofNumber n).IsNumeral ∧ (ofNumber n).amount = kept n.value := by
  cases n with
  | double d =>
      rw [kept, Number.value, rounded_double hn]
      exact ofDouble_spec hn
  | integer i =>
      rw [ofNumber]
      split
      · next hrange =>
        refine ⟨hrange, ?_⟩
        have hlt : i < 2 ^ 63 := by
          simp only [maxInteger] at hrange
          omega
        have hlt : (i : ℚ) < 2 ^ 63 := by exact_mod_cast hlt
        rw [kept, Number.value, rounded_of_lt hlt, capped_of_ne hlt.ne]
        rfl
      · next hrange =>
        obtain ⟨hmin, hmax⟩ := hn
        simp only [minInteger, maxInteger] at hrange hmin
        have hlow : 2 ^ 63 ≤ i := by omega
        obtain ⟨hfinite, hvalue⟩ := Double.ofInt_eq hlow hmax
        rw [kept, Number.value, rounded_intCast hlow hmax, ← hvalue]
        exact ofDouble_spec hfinite

/-- Numbers compare equal exactly if the same is kept of both. -/
theorem equals_ofNumber {m n : Number} (hm : m.WellFormed) (hn : n.WellFormed) :
    (ofNumber m).equals (ofNumber n) ↔ kept m.value = kept n.value := by
  obtain ⟨hm, hkeptm⟩ := ofNumber_spec hm
  obtain ⟨hn, hkeptn⟩ := ofNumber_spec hn
  rw [equals_iff_amount hm hn, hkeptm, hkeptn]

/-! ## Which numbers are not told apart from all others -/

/-- The number lies where canonicalization does not keep every number exactly. -/
def Blurred (n : Number) : Prop := 2 ^ 63 - 1 ≤ n.value ∧ n.value ≤ 2 ^ 64

theorem kept_of_not_blurred {n : Number} (h : ¬ Blurred n) : kept n.value = n.value := by
  rw [Blurred, not_and_or, not_le, not_le] at h
  rcases h with h | h
  · have hlt : n.value < 2 ^ 63 := by linarith
    rw [kept, rounded_of_lt hlt, capped_of_ne hlt.ne]
  · have hne : n.value ≠ 2 ^ 63 := by
      intro heq
      rw [heq] at h
      norm_num at h
    rw [kept, rounded_of_le h.le, capped_of_ne hne]

/-- All numbers there are whole. -/
theorem Blurred.exists_int {n : Number} (h : Blurred n) (hn : n.WellFormed) :
    ∃ i : Int, n.value = i ∧ 2 ^ 63 - 1 ≤ i ∧ i ≤ 2 ^ 64 := by
  obtain ⟨i, hi⟩ : ∃ i : Int, n.value = i := by
    cases n with
    | integer i => exact ⟨i, rfl⟩
    | double d =>
        by_cases htop : d.value < 2 ^ 64
        · obtain ⟨k, hk⟩ := Double.exists_multiple hn (Double.value_gap hn h.1) htop
          exact ⟨(2048 * k : Nat), by rw [Number.value, hk, Int.cast_natCast]⟩
        · have heq : d.value = 2 ^ 64 := le_antisymm h.2 (not_lt.mp htop)
          exact ⟨2 ^ 64, by rw [Number.value, heq]; norm_num⟩
  obtain ⟨hlow, hhigh⟩ := h
  rw [hi] at hlow hhigh
  exact ⟨i, hi, by exact_mod_cast hlow, by exact_mod_cast hhigh⟩

theorem kept_greatest : kept ((2 ^ 63 - 1 : Int) : ℚ) = 2 ^ 63 - 1 := by
  have hlt : ((2 ^ 63 - 1 : Int) : ℚ) < 2 ^ 63 := by norm_num
  rw [kept, rounded_of_lt hlt, capped_of_ne hlt.ne]
  norm_num

theorem kept_top : kept ((2 ^ 64 : Int) : ℚ) = 2 ^ 64 := by
  have hle : (2 ^ 64 : ℚ) ≤ ((2 ^ 64 : Int) : ℚ) := by norm_num
  rw [kept, rounded_of_le hle, capped_of_ne (by norm_num)]
  norm_num

theorem kept_past {i : Int} (hlow : 2 ^ 63 ≤ i) (hhigh : i < 2 ^ 64) :
    kept i = capped (2048 * Magnitude.roundQuotient i.toNat 2048) := by
  rw [kept, rounded_intCast hlow hhigh]

/-- What is kept of such a number is such a number. -/
theorem kept_mem {i : Int} (hlow : 2 ^ 63 - 1 ≤ i) (hhigh : i ≤ 2 ^ 64) :
    2 ^ 63 - 1 ≤ kept i ∧ kept i ≤ 2 ^ 64 := by
  by_cases hgreatest : i = 2 ^ 63 - 1
  · rw [hgreatest, kept_greatest]
    norm_num
  by_cases htop : i = 2 ^ 64
  · rw [htop, kept_top]
    norm_num
  obtain ⟨hleast, hmost⟩ :=
    Magnitude.roundQuotient_mem (n := i.toNat) (by omega) (by omega)
  have hleast : (2 ^ 52 : ℚ) ≤ Magnitude.roundQuotient i.toNat 2048 := by exact_mod_cast hleast
  have hmost : (Magnitude.roundQuotient i.toNat 2048 : ℚ) ≤ 2 ^ 53 := by exact_mod_cast hmost
  rw [kept_past (by omega) (by omega), capped]
  split
  · norm_num
  · constructor
    · linarith
    · linarith

/-- There is another number of which the same is kept. -/
theorem Blurred.exists_other {n : Number} (h : Blurred n) (hn : n.WellFormed) :
    ∃ m : Number, m.WellFormed ∧ kept n.value = kept m.value ∧ n.value ≠ m.value := by
  obtain ⟨i, hi, hlow, hhigh⟩ := h.exists_int hn
  rw [hi]
  by_cases hgreatest : i = 2 ^ 63 - 1
  · refine ⟨.integer (2 ^ 63), ⟨by decide, by decide⟩, ?_, ?_⟩
    · rw [hgreatest, kept_greatest, Number.value, kept_past (by decide) (by decide)]
      have hround : Magnitude.roundQuotient (2 ^ 63 : Int).toNat 2048 = 2 ^ 52 := by decide
      rw [hround]
      norm_num [capped]
    · rw [hgreatest, Number.value]
      norm_num
  by_cases htop : i = 2 ^ 64
  · refine ⟨.integer (2 ^ 64 - 1), ⟨by decide, by decide⟩, ?_, ?_⟩
    · rw [htop, kept_top, Number.value, kept_past (by decide) (by decide)]
      have hround : Magnitude.roundQuotient (2 ^ 64 - 1 : Int).toNat 2048 = 2 ^ 53 := by decide
      rw [hround]
      norm_num [capped]
    · rw [htop, Number.value]
      norm_num
  obtain ⟨k, hne, hklow, hkhigh, hround⟩ :=
    Magnitude.exists_roundQuotient_eq (n := i.toNat) (by omega) (by omega)
  refine ⟨.integer k, ⟨by simp only [minInteger]; omega, by omega⟩, ?_, ?_⟩
  · rw [Number.value, kept_past (by omega) (by omega), kept_past (by omega) (by omega),
      Int.toNat_natCast, hround]
  · rw [Number.value, Ne, Int.cast_inj]
    omega

/-- Numbers of which the same is kept are equal where one of them is not blurred. -/
theorem value_eq_of_kept_eq {m n : Number} (hm : ¬ Blurred m) (hn : n.WellFormed)
    (h : kept m.value = kept n.value) : m.value = n.value := by
  rw [kept_of_not_blurred hm] at h
  by_cases hblurred : Blurred n
  · obtain ⟨i, hi, hlow, hhigh⟩ := hblurred.exists_int hn
    rw [hi] at h
    rw [Blurred, h] at hm
    exact absurd (kept_mem hlow hhigh) hm
  · rw [h, kept_of_not_blurred hblurred]

/-- What is kept falls below 2 ^ 63 only for the first integers past it. -/
theorem le_of_kept_lt {i : Int} (hlow : 2 ^ 63 ≤ i) (hhigh : i < 2 ^ 64)
    (h : kept i < 2 ^ 63) : i ≤ 2 ^ 63 + 1024 := by
  obtain ⟨hleast, -⟩ := Magnitude.roundQuotient_mem (n := i.toNat) (by omega) (by omega)
  rw [kept_past hlow hhigh, capped] at h
  split at h
  · next heq =>
    have hround : 2048 * Magnitude.roundQuotient i.toNat 2048 = 2 ^ 63 := by exact_mod_cast heq
    have := Magnitude.le_of_roundQuotient_eq (n := i.toNat) (by omega)
    omega
  · have hround : 2048 * Magnitude.roundQuotient i.toNat 2048 < 2 ^ 63 := by exact_mod_cast h
    omega

/-- A number that becomes an integer is equal to it, but for the integers up to half a multiple of 2048
past the greatest one. -/
theorem ofNumber_eq_integer {n : Number} (hn : n.WellFormed) {i : Int} (h : ofNumber n = .integer i) :
    n.value = i ↔ ¬ (2 ^ 63 ≤ n.value ∧ n.value ≤ 2 ^ 63 + 1024) := by
  obtain ⟨hnumeral, hkept⟩ := ofNumber_spec hn
  rw [h] at hnumeral hkept
  obtain ⟨-, hmax⟩ := hnumeral
  simp only [maxInteger] at hmax
  have hlt : (i : ℚ) < 2 ^ 63 := by exact_mod_cast (show i < 2 ^ 63 by omega)
  change (i : ℚ) = kept n.value at hkept
  by_cases hlow : n.value < 2 ^ 63
  · rw [kept, rounded_of_lt hlow, capped_of_ne hlow.ne] at hkept
    exact ⟨fun _ hrange => absurd hrange.1 (not_le.mpr hlow), fun _ => hkept.symm⟩
  rw [not_lt] at hlow
  refine ⟨fun heq => absurd (heq ▸ hlow) (not_le.mpr hlt), fun hrange => absurd ⟨hlow, ?_⟩ hrange⟩
  by_cases htop : n.value < 2 ^ 64
  · have hblurred : Blurred n := ⟨by linarith, htop.le⟩
    obtain ⟨j, hj, -, -⟩ := hblurred.exists_int hn
    rw [hj] at hlow htop hkept ⊢
    rw [hkept] at hlt
    exact_mod_cast le_of_kept_lt (by exact_mod_cast hlow) (by exact_mod_cast htop) hlt
  · rw [not_lt] at htop
    have hne : n.value ≠ 2 ^ 63 := by
      intro heq
      rw [heq] at htop
      norm_num at htop
    rw [kept, rounded_of_le htop, capped_of_ne hne] at hkept
    rw [hkept] at hlt
    exact absurd hlt (not_lt.mpr hlow)

end Value

end Crosscheck
