import Crosscheck.Text.Basic
import Crosscheck.Number.Double
/-!
# Decimal forms of a double

The shortest decimal that reads back: on the grid of one digit, then of two, and so on, the two
neighbours of the value are tried, the nearer one first, and the first that rounds back to the value
is taken. Two layouts of its digits are used: the positional one, and one that turns to powers of ten
outside a middle range.
-/

namespace Crosscheck

/-- The number `coefficient * 10 ^ exponent`. -/
structure Decimal where
  coefficient : Nat
  exponent : Int
deriving DecidableEq

namespace Decimal

/-- Ten to an integer power, as a quotient. -/
def powerOfTen : Int → Nat × Nat
  | .ofNat n => (Nat.pow 10 n, 1)
  | .negSucc n => (1, Nat.pow 10 (n + 1))

/-- The exact value as a numerator and a denominator. -/
def ratio (d : Decimal) : Nat × Nat :=
  let (up, down) := powerOfTen d.exponent
  (d.coefficient * up, down)

/-- The magnitude nearest to the decimal; none when that is past the greatest one. -/
def nearest? (d : Decimal) : Option Magnitude := Magnitude.nearest? d.ratio.1 d.ratio.2

/-- Number of decimal digits. -/
def digitCount (n : Nat) : Nat := (Text.ofNat n).length

/-- The `k` with `10 ^ (k - 1) ≤ num / den < 10 ^ k`, for a positive quotient. -/
def pointOf (num den : Nat) : Int :=
  let guess := (digitCount num : Int) - digitCount den
  let (up, down) := powerOfTen guess
  if den * up ≤ num * down then guess + 1 else guess

/-- The neighbours of `num / den` on the grid of multiples of `10 ^ exponent`, the nearer first and
the even one first at a tie. -/
def neighbours (num den : Nat) (exponent : Int) : List Decimal :=
  let (up, down) := powerOfTen exponent
  let low := num * down / (den * up)
  let twice := 2 * (num * down % (den * up))
  let lowFirst := twice < den * up || (twice == den * up && low % 2 == 0)
  if lowFirst then [⟨low, exponent⟩, ⟨low + 1, exponent⟩] else [⟨low + 1, exponent⟩, ⟨low, exponent⟩]

/-- The exact value of a magnitude in decimal. -/
def exact (x : Magnitude) : Decimal :=
  match x.exponent with
  | .ofNat n => ⟨x.mantissa * Nat.pow 2 n, 0⟩
  | .negSucc n => ⟨x.mantissa * Nat.pow 5 (n + 1), -(n + 1 : Nat)⟩

/-- The decimal with the fewest digits that rounds to `x`, and of those the nearest to it. -/
def shortest (x : Magnitude) : Decimal :=
  if x.mantissa = 0 then ⟨0, 0⟩
  else
    let (num, den) := x.ratio
    let point := pointOf num den
    let candidates := (List.range 17).flatMap fun n : Nat => neighbours num den (point - (n + 1 : Nat))
    (candidates.find? fun d => d.nearest? = some x).getD (exact x)

/-- The significant digits without zeros at either end, and the place of the point: the value is
`0.digits * 10 ^ point`. -/
def significant (d : Decimal) : Text × Int :=
  let ds := Text.ofNat d.coefficient
  let kept := (ds.reverse.dropWhile (· = '0')).reverse
  (kept, d.exponent + ds.length)

/-- Digits around a point, without an exponent; nothing follows the point of a whole number. -/
def positional (d : Decimal) : Text :=
  let (ds, point) := d.significant
  if ds.isEmpty then ['0']
  else if point ≤ 0 then ['0', '.'] ++ List.replicate (-point).toNat '0' ++ ds
  else
    let whole := point.toNat
    if ds.length ≤ whole then ds ++ List.replicate (whole - ds.length) '0'
    else ds.take whole ++ '.' :: ds.drop whole

/-- One digit before the point and a signed power of ten. -/
def scientific (d : Decimal) : Text :=
  let (ds, point) := d.significant
  let power := point - 1
  let mantissa := match ds with
    | [] => ['0']
    | [c] => [c]
    | c :: rest => c :: '.' :: rest
  mantissa ++ 'e' :: (if 0 ≤ power then '+' :: Text.ofInt power else Text.ofInt power)

/-- Positional from `10 ^ (-5)` up to `10 ^ 16`, with a digit after the point even for a whole
number; by powers of ten elsewhere. -/
def balanced (d : Decimal) : Text :=
  let (ds, point) := d.significant
  if ds.isEmpty then ['0', '.', '0']
  else if -5 < point && point ≤ 16 then
    if ds.length ≤ point then d.positional ++ ['.', '0'] else d.positional
  else d.scientific

end Decimal

namespace Double

/-- A leading minus for a negative number. -/
def signText (negative : Bool) : Text := if negative then ['-'] else []

/-- The shortest digits of a double, laid out by `layout`; not finite ones by name. -/
def textBy (layout : Decimal → Text) : Double → Text
  | .nan => "NaN"
  | .infinite s => signText s ++ "inf"
  | .finite s x => signText s ++ layout (Decimal.shortest x)

/-- The double nearest to a decimal. -/
def ofDecimal (negative : Bool) (d : Decimal) : Double :=
  ofQuotient negative d.ratio.1 d.ratio.2

end Double

end Crosscheck
