import Crosscheck.Json.Reader
import Crosscheck.Json.Writer
import Crosscheck.Proofs.Text.Digits
import Mathlib.Data.List.TakeWhile
/-!
# Numbers in front of other tokens

Reading a number does not depend on what comes after it, as long as that does not go on the number. The
writing of an integer reads as that integer.
-/

namespace Crosscheck.Json

/-- What may stand behind a value: nothing, a comma or the end of what is around it. -/
def Stops (rest : Text) : Prop := ∀ c ∈ rest.head?, c = ',' ∨ c = ']' ∨ c = '\x7d'

theorem stops_nil : Stops [] := by
  intro c hc
  cases hc

theorem stops_comma (s : Text) : Stops (',' :: s) := by simp [Stops]

theorem stops_bracket (s : Text) : Stops (']' :: s) := by simp [Stops]

theorem stops_brace (s : Text) : Stops ('\x7d' :: s) := by simp [Stops]

/-- More text behind what was read. -/
def before {α : Type} (rest : Text) (found : α × Text) : α × Text := (found.1, found.2 ++ rest)

variable {s rest : Text}

theorem Stops.cons {c : Char} (h : Stops (c :: s)) : c = ',' ∨ c = ']' ∨ c = '\x7d' := h c rfl

theorem Stops.takeWhile (h : Stops rest) : rest.takeWhile Text.isAsciiDigit = [] := by
  cases rest with
  | nil => rfl
  | cons c rest => rcases h.cons with rfl | rfl | rfl <;> rfl

theorem Stops.dropWhile (h : Stops rest) : rest.dropWhile Text.isAsciiDigit = rest := by
  cases rest with
  | nil => rfl
  | cons c rest => rcases h.cons with rfl | rfl | rfl <;> rfl

theorem readDigits_append (h : Stops rest) (s : Text) :
    readDigits (s ++ rest) = (readDigits s).map (before rest) := by
  have htake : (s ++ rest).takeWhile Text.isAsciiDigit = s.takeWhile Text.isAsciiDigit := by
    induction s with
    | nil => exact h.takeWhile
    | cons c s ih => simp [List.takeWhile_cons, ih]
  have hdrop : (s ++ rest).dropWhile Text.isAsciiDigit = s.dropWhile Text.isAsciiDigit ++ rest := by
    rw [List.dropWhile_append]
    split
    · next hall => rw [List.isEmpty_iff.mp hall, List.nil_append, h.dropWhile]
    · rfl
  simp only [readDigits, htake, hdrop]
  split <;> rfl

theorem readWhole_append (h : Stops rest) (s : Text) :
    readWhole (s ++ rest) = (readWhole s).map (before rest) := by
  simp only [readWhole, readDigits_append h]
  cases readDigits s with
  | none => rfl
  | some found =>
      obtain ⟨ds, after⟩ := found
      match ds with
      | [] => rfl
      | [d] => by_cases hd : d = '0' <;> simp [before, hd]
      | d :: d' :: ds => by_cases hd : d = '0' <;> simp [before, hd]

theorem readFraction_append (h : Stops rest) (s : Text) :
    readFraction (s ++ rest) = (readFraction s).map (before rest) := by
  cases s with
  | nil =>
      cases rest with
      | nil => rfl
      | cons c rest => rcases h.cons with rfl | rfl | rfl <;> rfl
  | cons c s =>
      by_cases hc : c = '.'
      · subst hc
        simp only [List.cons_append, readFraction, readDigits_append h, Option.map_map]
        rfl
      · simp [readFraction, hc, before]

theorem readExponent_append (h : Stops rest) (s : Text) :
    readExponent (s ++ rest) = (readExponent s).map (before rest) := by
  cases s with
  | nil =>
      cases rest with
      | nil => rfl
      | cons c rest => rcases h.cons with rfl | rfl | rfl <;> rfl
  | cons c s =>
      by_cases hc : c = 'e' ∨ c = 'E'
      · cases s with
        | nil =>
            cases rest with
            | nil => rcases hc with rfl | rfl <;> rfl
            | cons d rest => rcases hc with rfl | rfl <;> rcases h.cons with rfl | rfl | rfl <;> rfl
        | cons d s =>
            have hplain (t : Text) : readDigits (t ++ rest) = (readDigits t).map (before rest) :=
              readDigits_append h t
            by_cases hplus : d = '+'
            · simp [readExponent, hc, hplus, hplain, Function.comp_def, before]
            by_cases hminus : d = '-'
            · simp [readExponent, hc, hminus, hplain, Function.comp_def, before]
            · have hall := hplain (d :: s)
              rw [List.cons_append] at hall
              simp [readExponent, hc, hplus, hminus, hall, Function.comp_def, before]
      · simp [readExponent, hc, before]

/-- A numeral after its sign. -/
def readUnsigned (negative : Bool) (s : Text) : Option (Numeral × Text) := do
  let (whole, s) ← readWhole s
  let (fraction, s) ← readFraction s
  let (exponent, s) ← readExponent s
  return (⟨negative, whole, fraction, exponent⟩, s)

theorem readUnsigned_append (h : Stops rest) (negative : Bool) (s : Text) :
    readUnsigned negative (s ++ rest) = (readUnsigned negative s).map (before rest) := by
  simp only [readUnsigned, readWhole_append h]
  cases readWhole s with
  | none => rfl
  | some whole =>
      simp only [Option.map_some, Option.bind_eq_bind, Option.bind_some, before, readFraction_append h]
      cases readFraction whole.2 with
      | none => rfl
      | some fraction =>
          simp only [Option.map_some, Option.bind_some, before, readExponent_append h]
          cases readExponent fraction.2 <;> rfl

theorem readNumeral_minus (s : Text) : readNumeral ('-' :: s) = readUnsigned true s := rfl

theorem readNumeral_of_ne {c : Char} (hc : c ≠ '-') (s : Text) :
    readNumeral (c :: s) = readUnsigned false (c :: s) := by
  simp [readNumeral, readUnsigned, hc]

theorem readNumeral_append (h : Stops rest) (s : Text) :
    readNumeral (s ++ rest) = (readNumeral s).map (before rest) := by
  cases s with
  | nil =>
      cases rest with
      | nil => rfl
      | cons c rest => rcases h.cons with rfl | rfl | rfl <;> rfl
  | cons c s =>
      by_cases hc : c = '-'
      · subst hc
        rw [List.cons_append, readNumeral_minus, readNumeral_minus, readUnsigned_append h]
      · rw [List.cons_append, readNumeral_of_ne hc, readNumeral_of_ne hc, ← List.cons_append,
          readUnsigned_append h]

/-! ## Integers -/

theorem readWhole_ofNat (n : Nat) : readWhole (Text.ofNat n) = some (Text.ofNat n, []) := by
  have hall : ∀ c ∈ Text.ofNat n, Text.isAsciiDigit c := fun c => Text.isAsciiDigit_of_mem_ofNat
  have hdigits : readDigits (Text.ofNat n) = some (Text.ofNat n, []) := by
    simp [readDigits, List.takeWhile_eq_self_iff.mpr hall, List.dropWhile_eq_nil_iff.mpr hall,
      Text.ofNat_ne_nil]
  rw [readWhole, hdigits]
  split
  · next d ds after hlead =>
    -- only the digit of zero begins with a zero, and nothing follows it
    simp only [Option.some.injEq, Prod.mk.injEq] at hlead
    have hzero : n = 0 := Text.eq_zero_of_head?_ofNat (by rw [hlead.1]; rfl)
    rw [hzero] at hlead
    have hlength := congrArg List.length hlead.1
    simp [Text.ofNat] at hlength
  · rfl

/-- The writing of an integer as a numeral. -/
def ofInt (i : Int) : Numeral := ⟨decide (i < 0), Text.ofNat i.natAbs, none, none⟩

theorem readNumeral_ofInt (i : Int) : readNumeral (Text.ofInt i) = some (ofInt i, []) := by
  have hunsigned (negative : Bool) (n : Nat) :
      readUnsigned negative (Text.ofNat n) = some (⟨negative, Text.ofNat n, none, none⟩, []) := by
    simp [readUnsigned, readWhole_ofNat, readFraction, readExponent]
  cases i with
  | ofNat n =>
      obtain ⟨c, s, hs⟩ := List.exists_cons_of_ne_nil (Text.ofNat_ne_nil n)
      have hc : c ≠ '-' := by
        rintro rfl
        have hdigit : Text.isAsciiDigit '-' := Text.isAsciiDigit_of_mem_ofNat (n := n) (by simp [hs])
        cases hdigit
      rw [Text.ofInt, hs, readNumeral_of_ne hc, ← hs, hunsigned]
      rfl
  | negSucc n => simp [Text.ofInt, readNumeral_minus, hunsigned, ofInt, Int.negSucc_lt_zero]

theorem value?_ofInt {i : Int} (hlow : -9223372036854775808 ≤ i) (hhigh : i < 18446744073709551616) :
    (ofInt i).value? = some (.integer i) := by
  have hinteger : (ofInt i).integer? = some i := by
    cases i with
    | ofNat n =>
        have hn : n ≤ Numeral.maxSignificand := by
          simp only [Int.ofNat_eq_natCast] at hhigh
          simp only [Numeral.maxSignificand]
          omega
        simp [Numeral.integer?, ofInt, hn]
    | negSucc n =>
        have hn : n + 1 ≤ 9223372036854775808 := by omega
        simp [Numeral.integer?, ofInt, hn]
        omega
  simp [Numeral.value?, hinteger]

end Crosscheck.Json
