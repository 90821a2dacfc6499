import Crosscheck.Json.Basic
import Crosscheck.Number.Decimal
import Crosscheck.Text.Blank
import Crosscheck.Text.WordChar
import Crosscheck.Value.Basic
/-!
# Sums of literals

The smallest language worth evaluating: number or string literals with plus signs between them. Integers
of 64 bits are added exactly or not at all, a double among them makes doubles of the rest, and strings are
joined.
-/

namespace Crosscheck.Sum

/-- A literal. -/
inductive Literal
  | integer (i : Int)
  | double (d : Double)
  | string (s : Text)
deriving DecidableEq

/-- Why a text is no sum, or has no value. -/
inductive Defect
  | unexpected (c : Char)
  | unterminated
  | badNumber (s : Text)
  | unresolved (c : Char)
  | dangling
  | empty
  | overflow
  | mixed
deriving DecidableEq

/-- The defect of an expression in words. -/
def Defect.message (expression : Text) : Defect → Text
  | .unexpected c => "unexpected '" ++ [c] ++ "' in '" ++ expression ++ "'"
  | .unterminated => "unterminated string in '" ++ expression ++ "'"
  | .badNumber s => "invalid number '" ++ s ++ "'"
  | .unresolved c => "unresolved reference at '" ++ [c] ++ "'"
  | .dangling => "dangling '+' in '" ++ expression ++ "'"
  | .empty => "empty expression"
  | .overflow => "integer overflow"
  | .mixed => "type mismatch: cannot add a string and a number"

/-- The rest of a string after its opening quote, and the text after it. A backslash takes the next
character as it is. -/
def readString : Text → Option (Text × Text)
  | [] => none
  | '"' :: after => some ([], after)
  | '\\' :: c :: s => (readString s).map fun (inner, after) => (c :: inner, after)
  | c :: s => (readString s).map fun (inner, after) => (c :: inner, after)

/-- Whether a character can go on with a number. -/
def isNumberChar (c : Char) : Bool := Text.isAsciiDigit c || c == '.'

/-- Whether a character can start a number. -/
def startsNumber (c : Char) : Bool := isNumberChar c || c == '-'

/-- The sign of a number and what follows it. -/
def signed : Text → Bool × Text
  | '-' :: s => (true, s)
  | s => (false, s)

/-- The integer of 64 bits that digits with a sign spell. -/
def integer? (s : Text) : Option Int :=
  let (negative, digits) := signed s
  if digits.isEmpty || !digits.all Text.isAsciiDigit then none
  else
    let n : Int := Text.natOfDigits digits
    let i := if negative then -n else n
    if Value.minInteger ≤ i ∧ i ≤ Value.maxInteger then some i else none

/-- The double that digits with a sign and one point spell; there is a digit on one side at least. -/
def double? (s : Text) : Option Double :=
  let (negative, s) := signed s
  let whole := s.takeWhile (· ≠ '.')
  let fraction := s.drop (whole.length + 1)
  let digits := whole ++ fraction
  if digits.isEmpty || !digits.all Text.isAsciiDigit then none
  else some (Double.ofDecimal negative ⟨Text.natOfDigits digits, -(fraction.length : Int)⟩)

/-- The literal that a run of digits, points and a sign spells. -/
def number? (s : Text) : Option Literal :=
  if s.contains '.' then (double? s).map .double else (integer? s).map .integer

/-- The number at the front of a text, and the text after it. -/
def numberText (c : Char) (s : Text) : Text × Text :=
  (c :: s.takeWhile isNumberChar, s.dropWhile isNumberChar)

/-- The literals of a sum. The bound must be greater than the length of the text. -/
def literals : Nat → (operandNext : Bool) → (any : Bool) → Text → Except Defect (List Literal)
  | 0, _, _, _ => .ok []
  | _ + 1, operandNext, any, [] => if operandNext && any then .error .dangling else .ok []
  | bound + 1, operandNext, any, c :: s =>
    if Text.isBlank c then literals bound operandNext any s
    else if !operandNext then
      if c = '+' then literals bound true any s else .error (.unexpected c)
    else if c = '"' then
      match readString s with
      | none => .error .unterminated
      | some (inner, after) => (literals bound false true after).map (.string inner :: ·)
    else if startsNumber c then
      let (written, after) := numberText c s
      match number? written with
      | none => .error (.badNumber written)
      | some l => (literals bound false true after).map (l :: ·)
    else .error (.unresolved c)

/-- The sum of two literals. -/
def add : Literal → Literal → Except Defect Literal
  | .integer i, .integer j =>
    if Value.minInteger ≤ i + j ∧ i + j ≤ Value.maxInteger then .ok (.integer (i + j))
    else .error .overflow
  | .integer i, .double e => .ok (.double ((Double.ofInt i).add e))
  | .double d, .integer j => .ok (.double (d.add (Double.ofInt j)))
  | .double d, .double e => .ok (.double (d.add e))
  | .string s, .string t => .ok (.string (s ++ t))
  | _, _ => .error .mixed

/-- A literal as JSON; a double that is not finite is null. -/
def Literal.toJson : Literal → Json
  | .integer i => .number (.integer i)
  | .double (.finite s x) => .number (.double (.finite s x))
  | .double _ => .null
  | .string s => .string s

/-- The value of a sum, from left to right. -/
def evaluate (expression : Text) : Except Defect Json :=
  if expression = "true".toList then .ok (.bool true)
  else if expression = "false".toList then .ok (.bool false)
  else if expression = "null".toList ∨ expression = "nil".toList then .ok .null
  else match literals (expression.length + 1) true false expression with
    | .error d => .error d
    | .ok [] => .error .empty
    | .ok (first :: rest) => (rest.foldlM add first).map Literal.toJson

end Crosscheck.Sum
