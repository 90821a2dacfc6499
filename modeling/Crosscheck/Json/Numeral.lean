import Crosscheck.Json.Basic
import Crosscheck.Number.Decimal
/-!
# JSON numerals

The value of a number as it is written. Without fraction and exponent it is an integer if 64 bits
hold it. Everything else is a double: the leading digits, as many as 64 bits hold, are scaled by
powers of ten in double arithmetic, rounding at every step. A number past the greatest double has
no value.
-/

namespace Crosscheck.Json

/-- A number as it is written. -/
structure Numeral where
  negative : Bool
  /-- The digits before the point. -/
  whole : Text
  /-- The digits after the point, if there is one. -/
  fraction : Option Text
  /-- The power of ten, if one is written. -/
  exponent : Option Int
deriving DecidableEq

namespace Numeral

/-- The greatest significand, the last number of 64 bits. -/
def maxSignificand : Nat := 18446744073709551615

/-- Take up digits while the significand has room: the significand, how many were taken up and how
many were left over. -/
def takeDigits (significand : Nat) : Text → Nat × Nat × Nat
  | [] => (significand, 0, 0)
  | d :: ds =>
    let next := 10 * significand + (d.toNat - '0'.toNat)
    if maxSignificand < next then (significand, 0, ds.length + 1)
    else
      let (result, taken, left) := takeDigits next ds
      (result, taken + 1, left)

/-- The double nearest to a power of ten that is within its range. -/
def powerOfTen (n : Nat) : Magnitude := (Magnitude.nearest? (Nat.pow 10 n) 1).getD .zero

/-- Product, rounded once; none when it is past the greatest magnitude. -/
def multiply? (x y : Magnitude) : Option Magnitude :=
  Magnitude.nearest? (x.ratio.1 * y.ratio.1) (x.ratio.2 * y.ratio.2)

/-- Quotient, rounded once. -/
def divide? (x y : Magnitude) : Option Magnitude :=
  Magnitude.nearest? (x.ratio.1 * y.ratio.2) (x.ratio.2 * y.ratio.1)

/-- The greatest power of ten that a double holds. -/
def topPower : Nat := 308

/-- Divide by the greatest power of ten `n` times, or until nothing is left. -/
def shrink? (x : Magnitude) : Nat → Option Magnitude
  | 0 => some x
  | n + 1 =>
    if x.mantissa = 0 then some x
    else match divide? x (powerOfTen topPower) with
      | some y => shrink? y n
      | none => none

/-- Scale by a power of ten. A power below the least that a double holds is divided off in parts;
none when the result is past the greatest magnitude. -/
def scale? (x : Magnitude) : Int → Option Magnitude
  | .ofNat n =>
    if n ≤ topPower then multiply? x (powerOfTen n)
    else if x.mantissa = 0 then some x
    else none
  | .negSucc n =>
    let parts := n / topPower
    match shrink? x parts with
    | some y => divide? y (powerOfTen (n + 1 - parts * topPower))
    | none => none

/-- The double that a numeral stands for. -/
def double? (n : Numeral) : Option Double :=
  let (significand, _, dropped) := takeDigits 0 n.whole
  let (significand, taken, _) := takeDigits significand (n.fraction.getD [])
  let power : Int := (dropped : Int) - taken + n.exponent.getD 0
  match Magnitude.nearest? significand 1 with
  | some x => (scale? x power).map (.finite n.negative)
  | none => none

/-- The integer that a numeral stands for, if 64 bits hold it. A negative zero is none. -/
def integer? (n : Numeral) : Option Int :=
  if n.fraction.isSome || n.exponent.isSome then none
  else
    let value := Text.natOfDigits n.whole
    if n.negative then
      if value ≠ 0 ∧ value ≤ 9223372036854775808 then some (-(value : Int)) else none
    else if value ≤ maxSignificand then some value else none

/-- The value of a numeral. -/
def value? (n : Numeral) : Option Number :=
  match n.integer? with
  | some i => some (.integer i)
  | none => n.double?.map .double

end Numeral

end Crosscheck.Json
