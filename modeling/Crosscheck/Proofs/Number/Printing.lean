import Crosscheck.Number.Decimal
import Crosscheck.Proofs.Number.Rounding
import Crosscheck.Proofs.Text.Digits
import Mathlib.Data.List.TakeWhile
/-!
# What the digits of a double stand for

The shortest digits of a double round back to it, and the positional layout stands for the number that the
digits make. So two doubles with the same text are the same, and one with the text of an integer of 64 bits
is equal to an integer of 64 bits.
-/

namespace Crosscheck

namespace Text

/-- The number that digits with a point among them stand for. -/
def decimal (s : Text) : ℚ :=
  natOfDigits (s.takeWhile (· ≠ '.') ++ (s.dropWhile (· ≠ '.')).tail) /
    10 ^ (s.dropWhile (· ≠ '.')).tail.length

/-- A minus may stand before them. -/
def signedDecimal : Text → ℚ
  | [] => 0
  | c :: s => if c = '-' then -decimal s else decimal (c :: s)

variable {s t : Text}

theorem decimal_whole (h : '.' ∉ s) : decimal s = natOfDigits s := by
  have hall : ∀ c ∈ s, decide (c ≠ '.') = true := by simpa using List.forall_mem_ne'.mpr h
  rw [decimal, List.takeWhile_eq_self_iff.mpr hall, List.dropWhile_eq_nil_iff.mpr hall]
  simp

theorem decimal_point (h : '.' ∉ s) (t : Text) :
    decimal (s ++ '.' :: t) = natOfDigits (s ++ t) / 10 ^ t.length := by
  have hall : ∀ c ∈ s, decide (c ≠ '.') = true := by simpa using List.forall_mem_ne'.mpr h
  rw [decimal, List.takeWhile_append_of_pos hall, List.dropWhile_append_of_pos hall]
  simp

theorem signedDecimal_signed (hne : s ≠ []) (hs : '-' ∉ s) (negative : Bool) :
    signedDecimal (Double.signText negative ++ s) = if negative then -decimal s else decimal s := by
  cases negative with
  | true => simp [Double.signText, signedDecimal]
  | false =>
      obtain ⟨c, s, rfl⟩ := List.exists_cons_of_ne_nil hne
      have hc : c ≠ '-' := by
        rintro rfl
        exact hs List.mem_cons_self
      simp [Double.signText, signedDecimal, hc]

theorem not_mem_ofNat {c : Char} (hc : isAsciiDigit c = false) (n : Nat) : c ∉ ofNat n := by
  intro hmem
  rw [isAsciiDigit_of_mem_ofNat hmem] at hc
  cases hc

theorem ofInt_eq (i : Int) : ofInt i = Double.signText (decide (i < 0)) ++ ofNat i.natAbs := by
  cases i with
  | ofNat n => simp [ofInt, Double.signText]
  | negSucc n => simp [ofInt, Double.signText, Int.negSucc_lt_zero]

theorem signedDecimal_ofInt (i : Int) : signedDecimal (ofInt i) = i := by
  rw [ofInt_eq, signedDecimal_signed (ofNat_ne_nil _) (not_mem_ofNat (by decide) _),
    decimal_whole (not_mem_ofNat (by decide) _), natOfDigits_ofNat]
  by_cases hi : i < 0
  · have habs : (i.natAbs : ℚ) = ((-i : Int) : ℚ) := by rw [Nat.cast_natAbs, abs_of_neg hi]
    simp [hi, habs]
  · have habs : (i.natAbs : ℚ) = i := by rw [Nat.cast_natAbs, abs_of_nonneg (not_lt.mp hi)]
    simp [hi, habs]

end Text

namespace Decimal

variable {d d' : Decimal}

/-- The exact value. -/
def value (d : Decimal) : ℚ := d.coefficient * 10 ^ d.exponent

theorem powerOfTen_pos (e : Int) : 0 < (powerOfTen e).2 := by
  cases e with
  | ofNat n => exact Nat.one_pos
  | negSucc n => exact Nat.pow_pos (by decide)

theorem powerOfTen_eq (e : Int) : ((powerOfTen e).1 : ℚ) / (powerOfTen e).2 = 10 ^ e := by
  cases e with
  | ofNat n => simp [powerOfTen]
  | negSucc n => simp [powerOfTen, zpow_negSucc]

theorem ratio_eq (d : Decimal) : (d.ratio.1 : ℚ) / d.ratio.2 = d.value := by
  rw [value, ← powerOfTen_eq]
  simp only [ratio, Nat.cast_mul]
  ring

theorem nearest?_of_value {x : Magnitude} (h : d.value = x.value) : d.nearest? = some x :=
  Magnitude.nearest?_of_value (powerOfTen_pos d.exponent) ((ratio_eq d).trans h)

theorem nearest?_congr (h : d.value = d'.value) : d.nearest? = d'.nearest? := by
  refine Magnitude.nearest?_congr (powerOfTen_pos d.exponent) (powerOfTen_pos d'.exponent) ?_
  rw [ratio_eq, ratio_eq, h]

theorem value_exact (x : Magnitude) : (exact x).value = x.value := by
  rw [Magnitude.value, exact]
  split
  · next n hn =>
    rw [hn]
    simp [value]
  · next n hn =>
    have hten : (10 : ℚ) ^ (n + 1) = 2 ^ (n + 1) * 5 ^ (n + 1) := by
      rw [← mul_pow]
      norm_num
    rw [hn, value, zpow_neg, zpow_natCast, zpow_negSucc, hten]
    simp only [Nat.pow_eq, Nat.cast_mul, Nat.cast_pow, Nat.cast_ofNat]
    field_simp

theorem nearest?_find (candidates : List Decimal) (x : Magnitude) :
    ((candidates.find? fun d => d.nearest? = some x).getD (exact x)).nearest? = some x := by
  cases hfind : candidates.find? fun d => d.nearest? = some x with
  | none => exact nearest?_of_value (value_exact x)
  | some d =>
      have hfound := List.find?_some hfind
      exact of_decide_eq_true hfound

theorem nearest?_shortest (x : Magnitude) : (shortest x).nearest? = some x := by
  rw [shortest]
  split
  · next hzero =>
    apply nearest?_of_value
    simp [value, Magnitude.value, hzero]
  · exact nearest?_find _ x

/-! ## The positional layout -/

theorem exists_zeros (ds : Text) :
    ∃ k, ds = (ds.reverse.dropWhile (· = '0')).reverse ++ List.replicate k '0' := by
  have hzeros : ds.reverse.takeWhile (· = '0') =
      List.replicate (ds.reverse.takeWhile (· = '0')).length '0' := by
    apply List.eq_replicate_length.mpr
    intro c hc
    simpa using List.mem_takeWhile_imp hc
  refine ⟨(ds.reverse.takeWhile (· = '0')).length, ?_⟩
  calc ds = (ds.reverse.takeWhile (· = '0') ++ ds.reverse.dropWhile (· = '0')).reverse := by
        rw [List.takeWhile_append_dropWhile, List.reverse_reverse]
    _ = (ds.reverse.dropWhile (· = '0')).reverse ++ (ds.reverse.takeWhile (· = '0')).reverse :=
        List.reverse_append
    _ = _ := by rw [hzeros, List.reverse_replicate, List.length_replicate]

theorem value_significant (d : Decimal) :
    d.value = Text.natOfDigits d.significant.1 * 10 ^ (d.significant.2 - d.significant.1.length) := by
  obtain ⟨k, hk⟩ := exists_zeros (Text.ofNat d.coefficient)
  have hcoefficient : d.coefficient = Text.natOfDigits d.significant.1 * 10 ^ k := by
    have hdigits := congrArg Text.natOfDigits hk
    rwa [Text.natOfDigits_ofNat, Text.natOfDigits_append_zeros] at hdigits
  have hplace : d.significant.2 - d.significant.1.length = d.exponent + k := by
    have hlength := congrArg List.length hk
    rw [List.length_append, List.length_replicate] at hlength
    simp only [significant]
    omega
  rw [hplace, value, hcoefficient, zpow_add₀ (by norm_num), zpow_natCast]
  push_cast
  ring

theorem isAsciiDigit_significant {c : Char} (h : c ∈ d.significant.1) : Text.isAsciiDigit c := by
  obtain ⟨k, hk⟩ := exists_zeros (Text.ofNat d.coefficient)
  have hmem : c ∈ Text.ofNat d.coefficient := by
    rw [hk]
    exact List.mem_append_left _ h
  exact Text.isAsciiDigit_of_mem_ofNat hmem

/-- The digits before and after the point stand for the decimal. -/
structure LaidOut (d : Decimal) (whole fraction : Text) : Prop where
  whole_ne_nil : whole ≠ []
  digits : ∀ c ∈ whole ++ fraction, Text.isAsciiDigit c
  value_eq : d.value = Text.natOfDigits (whole ++ fraction) / 10 ^ fraction.length

section Layouts

variable {ds : Text} {n : Nat}

theorem isAsciiDigit_zeros (n : Nat) : ∀ c ∈ List.replicate n '0', Text.isAsciiDigit c := by
  intro c hc
  rw [List.eq_of_mem_replicate hc]
  rfl

/-- All digits stand behind the point. -/
theorem laidOut_behind (hdigits : ∀ c ∈ ds, Text.isAsciiDigit c)
    (hvalue : d.value = Text.natOfDigits ds * 10 ^ (-(n : Int) - ds.length)) :
    d.LaidOut ['0'] (List.replicate n '0' ++ ds) where
  whole_ne_nil := List.cons_ne_nil _ _
  digits := by
    intro c hc
    rw [← List.append_assoc, List.mem_append] at hc
    exact hc.elim (isAsciiDigit_zeros (n + 1) c) (hdigits c)
  value_eq := by
    have hfront : Text.natOfDigits (['0'] ++ (List.replicate n '0' ++ ds)) = Text.natOfDigits ds :=
      Text.natOfDigits_zeros_append (n + 1) ds
    have hplace : -(n : Int) - ds.length = -((n + ds.length : Nat) : Int) := by omega
    rw [hfront, hvalue, hplace, zpow_neg, zpow_natCast, List.length_append, List.length_replicate,
      div_eq_mul_inv]

/-- All digits stand before the point, with zeros behind them. -/
theorem laidOut_before (hne : ds ≠ []) (hdigits : ∀ c ∈ ds, Text.isAsciiDigit c)
    (hlength : ds.length ≤ n)
    (hvalue : d.value = Text.natOfDigits ds * 10 ^ ((n : Int) - ds.length)) :
    d.LaidOut (ds ++ List.replicate (n - ds.length) '0') [] where
  whole_ne_nil := List.append_ne_nil_of_left_ne_nil hne _
  digits := by
    intro c hc
    rw [List.append_nil, List.mem_append] at hc
    exact hc.elim (hdigits c) (isAsciiDigit_zeros _ c)
  value_eq := by
    have hplace : (n : Int) - ds.length = ((n - ds.length : Nat) : Int) := by omega
    rw [hvalue, hplace, zpow_natCast, List.append_nil, Text.natOfDigits_append_zeros]
    simp

/-- The point stands among the digits. -/
theorem laidOut_among (hdigits : ∀ c ∈ ds, Text.isAsciiDigit c) (hpos : 0 < n) (hlength : n < ds.length)
    (hvalue : d.value = Text.natOfDigits ds * 10 ^ ((n : Int) - ds.length)) :
    d.LaidOut (ds.take n) (ds.drop n) where
  whole_ne_nil := by
    apply List.ne_nil_of_length_pos
    rw [List.length_take]
    omega
  digits := by rwa [List.take_append_drop]
  value_eq := by
    have hplace : (n : Int) - ds.length = -((ds.drop n).length : Int) := by
      rw [List.length_drop]
      omega
    rw [List.take_append_drop, hvalue, hplace, zpow_neg, zpow_natCast, div_eq_mul_inv]

end Layouts

theorem positional_eq (d : Decimal) : ∃ whole fraction, d.LaidOut whole fraction ∧
    (d.positional = whole ∧ fraction = [] ∨ d.positional = whole ++ '.' :: fraction) := by
  have hvalue := value_significant d
  have hdigits : ∀ c ∈ d.significant.1, Text.isAsciiDigit c := fun c => isAsciiDigit_significant
  rw [positional]
  generalize d.significant = significant at hvalue hdigits
  obtain ⟨ds, point⟩ := significant
  simp only at hvalue hdigits ⊢
  split
  · next hnil =>
    rw [List.isEmpty_iff.mp hnil] at hvalue
    refine ⟨['0'], [], ⟨by simp, by simp [Text.isAsciiDigit], ?_⟩, .inl ⟨rfl, rfl⟩⟩
    simp [hvalue, Text.natOfDigits]
  · next hne =>
    have hne : ds ≠ [] := fun hnil => hne (List.isEmpty_iff.mpr hnil)
    split
    · next hpoint =>
      obtain ⟨n, rfl⟩ : ∃ n : Nat, point = -n := ⟨(-point).toNat, by omega⟩
      rw [Int.neg_neg, Int.toNat_natCast]
      exact ⟨['0'], _, laidOut_behind hdigits hvalue, .inr rfl⟩
    · next hpoint =>
      obtain ⟨n, rfl⟩ : ∃ n : Nat, point = n := ⟨point.toNat, by omega⟩
      rw [Int.toNat_natCast]
      split
      · next hlength => exact ⟨_, [], laidOut_before hne hdigits hlength hvalue, .inl ⟨rfl, rfl⟩⟩
      · next hlength =>
        exact ⟨_, _, laidOut_among hdigits (by omega) (by omega) hvalue, .inr rfl⟩

theorem positional_ne_nil (d : Decimal) : d.positional ≠ [] := by
  obtain ⟨whole, fraction, hlaid, ⟨heq, -⟩ | heq⟩ := positional_eq d
  · rw [heq]
    exact hlaid.whole_ne_nil
  · rw [heq]
    simp

/-- Digits and a point are all there is. -/
theorem mem_positional {c : Char} (h : c ∈ d.positional) : Text.isAsciiDigit c ∨ c = '.' := by
  obtain ⟨whole, fraction, hlaid, ⟨heq, -⟩ | heq⟩ := positional_eq d
  · rw [heq] at h
    exact .inl (hlaid.digits c (List.mem_append_left _ h))
  · rw [heq] at h
    rcases List.mem_append.mp h with hwhole | hfraction
    · exact .inl (hlaid.digits c (List.mem_append_left _ hwhole))
    · rcases List.mem_cons.mp hfraction with hpoint | hfraction
      · exact .inr hpoint
      · exact .inl (hlaid.digits c (List.mem_append_right _ hfraction))

theorem decimal_positional (d : Decimal) : Text.decimal d.positional = d.value := by
  obtain ⟨whole, fraction, hlaid, heq⟩ := positional_eq d
  have hpoint : '.' ∉ whole := by
    intro hmem
    have hdigit : Text.isAsciiDigit '.' := hlaid.digits '.' (List.mem_append_left _ hmem)
    cases hdigit
  rw [hlaid.value_eq]
  rcases heq with ⟨heq, rfl⟩ | heq
  · rw [heq, Text.decimal_whole hpoint]
    simp
  · rw [heq, Text.decimal_point hpoint]

theorem value_nonneg (d : Decimal) : 0 ≤ d.value :=
  mul_nonneg (Nat.cast_nonneg _) (zpow_nonneg (by norm_num) _)

theorem value_shortest_pos {x : Magnitude} (hx : x.value ≠ 0) : 0 < (shortest x).value := by
  refine lt_of_le_of_ne (value_nonneg _) fun hzero => hx ?_
  have hnearest : (shortest x).nearest? = some .zero :=
    nearest?_of_value (by rw [← hzero, Magnitude.value_zero])
  rw [nearest?_shortest, Option.some.injEq] at hnearest
  rw [hnearest, Magnitude.value_zero]

end Decimal

namespace Double

variable {s t : Bool} {x y : Magnitude}

theorem signedDecimal_text (s : Bool) (x : Magnitude) :
    Text.signedDecimal ((finite s x).textBy Decimal.positional) =
      if s then -(Decimal.shortest x).value else (Decimal.shortest x).value := by
  have hminus : '-' ∉ (Decimal.shortest x).positional := by
    intro hmem
    rcases Decimal.mem_positional hmem with hdigit | hpoint
    · cases hdigit
    · exact absurd hpoint (by decide)
  rw [textBy, Text.signedDecimal_signed (Decimal.positional_ne_nil _) hminus, Decimal.decimal_positional]

theorem finite_eq_of_text (hx : x.value ≠ 0) (hy : y.value ≠ 0)
    (h : (finite s x).textBy Decimal.positional = (finite t y).textBy Decimal.positional) :
    finite s x = finite t y := by
  have hvalue := congrArg Text.signedDecimal h
  rw [signedDecimal_text, signedDecimal_text] at hvalue
  -- a minus alone does not tell the zeros apart, so the values have to be positive
  have hposX := Decimal.value_shortest_pos hx
  have hposY := Decimal.value_shortest_pos hy
  obtain ⟨hsign, hsame⟩ : s = t ∧ (Decimal.shortest x).value = (Decimal.shortest y).value := by
    cases s <;> cases t <;> simp only [if_true, if_false, Bool.false_eq_true] at hvalue
    · exact ⟨rfl, hvalue⟩
    · linarith
    · linarith
    · exact ⟨rfl, neg_injective hvalue⟩
  have hnearest := Decimal.nearest?_congr hsame
  rw [Decimal.nearest?_shortest, Decimal.nearest?_shortest, Option.some.injEq] at hnearest
  rw [hsign, hnearest]

/-- A double with the text of an integer of 64 bits is equal to an integer of that size. -/
theorem exists_integer_of_text {i : Int} (hi : i.natAbs ≤ 2 ^ 63)
    (h : (finite s x).textBy Decimal.positional = Text.ofInt i) :
    ∃ j : Int, (finite s x).value = j ∧ -2 ^ 63 ≤ j ∧ j ≤ 2 ^ 63 := by
  have hvalue := congrArg Text.signedDecimal h
  rw [signedDecimal_text, Text.signedDecimal_ofInt] at hvalue
  have hnonneg := Decimal.value_nonneg (Decimal.shortest x)
  have habs : (Decimal.shortest x).value = ((i.natAbs : Nat) : ℚ) / (1 : Nat) := by
    rw [Nat.cast_one, div_one, Nat.cast_natAbs, Int.cast_abs, ← hvalue]
    cases s with
    | true => rw [if_pos rfl, abs_neg, abs_of_nonneg hnonneg]
    | false => rw [if_neg Bool.false_ne_true, abs_of_nonneg hnonneg]
  have hnearest : Magnitude.nearest? i.natAbs 1 = some x := by
    rw [← Decimal.nearest?_shortest x]
    refine Magnitude.nearest?_congr Nat.one_pos (Decimal.powerOfTen_pos _) ?_
    rw [← habs, Decimal.ratio_eq]
  obtain ⟨k, hk, hbound⟩ := Magnitude.exists_natural_of_nearest? hi hnearest
  cases s with
  | true => exact ⟨-k, by simp [value, hk], by omega, by omega⟩
  | false => exact ⟨k, by simp [value, hk], by omega, by omega⟩

end Double

end Crosscheck
