/-!
# Double-precision numbers

A double is not a number, an infinity, or a sign with a magnitude `mantissa * 2 ^ exponent` in its one
canonical form. Arithmetic computes the exact result as a quotient of naturals and rounds once, to the
nearest magnitude and to the even mantissa at a tie.
-/

namespace Crosscheck

/-- The form in which every magnitude is kept: 53 bits, from `2 ^ 52` up to `2 ^ 53`, unless the
exponent is the least one. -/
def Magnitude.IsCanonical (mantissa : Nat) (exponent : Int) : Prop :=
  mantissa < 9007199254740992 ∧ -1074 ≤ exponent ∧ exponent ≤ 971 ∧
    (4503599627370496 ≤ mantissa ∨ exponent = -1074)

instance (m : Nat) (e : Int) : Decidable (Magnitude.IsCanonical m e) :=
  inferInstanceAs (Decidable (_ ∧ _ ∧ _ ∧ (_ ∨ _)))

/-- The magnitude `mantissa * 2 ^ exponent` of a finite double. -/
structure Magnitude where
  mantissa : Nat
  exponent : Int
  canonical : Magnitude.IsCanonical mantissa exponent
deriving DecidableEq

namespace Magnitude

/-- The magnitude with these parts, if they are canonical. -/
def of? (mantissa : Nat) (exponent : Int) : Option Magnitude :=
  if h : IsCanonical mantissa exponent then some ⟨mantissa, exponent, h⟩ else none

def zero : Magnitude := ⟨0, -1074, by decide⟩

/-- Two to an integer power, as a quotient. -/
def powerOfTwo : Int → Nat × Nat
  | .ofNat n => (Nat.pow 2 n, 1)
  | .negSucc n => (1, Nat.pow 2 (n + 1))

/-- The exact value as a numerator and a denominator. -/
def ratio (x : Magnitude) : Nat × Nat :=
  let (up, down) := powerOfTwo x.exponent
  (x.mantissa * up, down)

/-- The exact value in units of `2 ^ (-1074)`, the distance of the least magnitudes. -/
def units (x : Magnitude) : Nat := x.mantissa * Nat.pow 2 (x.exponent + 1074).toNat

/-- `num / den` rounded to the nearest natural number, a half to the even neighbour. -/
def roundQuotient (num den : Nat) : Nat :=
  let q := num / den
  let twice := 2 * (num % den)
  if twice < den then q
  else if den < twice then q + 1
  else if q % 2 = 0 then q else q + 1

/-- The greatest `k` with `2 ^ k ≤ num / den`, for a positive quotient. -/
def floorLog2 (num den : Nat) : Int :=
  let guess := (num.log2 : Int) - den.log2
  let (up, down) := powerOfTwo guess
  if den * up ≤ num * down then guess else guess - 1

/-- The magnitude nearest to `num / den`; none when that is past the greatest one. -/
def nearest? (num den : Nat) : Option Magnitude :=
  if num = 0 then some zero
  else
    let exponent := max (-1074) (floorLog2 num den - 52)
    let (up, down) := powerOfTwo exponent
    let mantissa := roundQuotient (num * down) (den * up)
    if mantissa = 9007199254740992 then of? 4503599627370496 (exponent + 1)
    else of? mantissa exponent

end Magnitude

/-- A double-precision number. -/
inductive Double
  | nan
  | infinite (negative : Bool)
  | finite (negative : Bool) (magnitude : Magnitude)
deriving DecidableEq

namespace Double

/-- The double nearest to `num / den` with the given sign, an infinity when that is too great. -/
def ofQuotient (negative : Bool) (num den : Nat) : Double :=
  match Magnitude.nearest? num den with
  | some x => .finite negative x
  | none => .infinite negative

/-- The double nearest to an integer. -/
def ofInt (i : Int) : Double := ofQuotient (i < 0) i.natAbs 1

/-- The double that an interchange word of 64 bits stands for: 52 bits of the mantissa, 11 of the
exponent, and the sign. -/
def ofBits (word : UInt64) : Double :=
  let fraction := word.toNat % 4503599627370496
  let biased := word.toNat / 4503599627370496 % 2048
  let negative := decide (word.toNat / 4503599627370496 / 2048 % 2 = 1)
  have hf : fraction < 4503599627370496 := Nat.mod_lt _ (by decide)
  have hb : biased < 2048 := Nat.mod_lt _ (by decide)
  if hTop : biased = 2047 then if fraction = 0 then .infinite negative else .nan
  else if hLow : biased = 0 then .finite negative ⟨fraction, -1074, by
    refine ⟨by omega, by omega, by omega, Or.inr rfl⟩⟩
  else .finite negative ⟨4503599627370496 + fraction, (biased : Int) - 1075, by
    refine ⟨by omega, by omega, by omega, Or.inl (by omega)⟩⟩

/-- The same number with the other sign. -/
def neg : Double → Double
  | .nan => .nan
  | .infinite s => .infinite !s
  | .finite s x => .finite (!s) x

/-- The signed value of a finite double in units of `2 ^ (-1074)`. -/
def signedUnits (negative : Bool) (x : Magnitude) : Int :=
  if negative then -(x.units : Int) else x.units

/-- Numeric equality: the two zeros are equal and nothing equals a number that is not one. -/
def equals : Double → Double → Bool
  | .infinite s, .infinite t => s == t
  | .finite s x, .finite t y => signedUnits s x == signedUnits t y
  | _, _ => false

/-- Sum, rounded once. A zero sum is negative only if both terms are. -/
def add : Double → Double → Double
  | .finite s x, .finite t y =>
    let sum := signedUnits s x + signedUnits t y
    if sum = 0 then .finite (s && t) .zero else ofQuotient (sum < 0) sum.natAbs (Nat.pow 2 1074)
  | .infinite s, .infinite t => if s == t then .infinite s else .nan
  | .infinite s, .finite _ _ => .infinite s
  | .finite _ _, .infinite t => .infinite t
  | .nan, _ => .nan
  | _, .nan => .nan

/-- The integer that a finite double is equal to, if there is one. -/
def toInt? : Double → Option Int
  | .finite negative x =>
    let (num, den) := x.ratio
    if num % den = 0 then some (if negative then -(num / den : Nat) else (num / den : Nat)) else none
  | _ => none

end Double

end Crosscheck
