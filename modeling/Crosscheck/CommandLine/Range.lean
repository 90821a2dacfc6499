import Crosscheck.Text.Blank
import Crosscheck.Text.WordChar
/-!
# Numbers and ranges on the command line

A number is written in decimal digits, with a plus sign if one likes, and fits in 64 bits. A range is two
numbers with two dots between them, the second one not less than the first.
-/

namespace Crosscheck.CommandLine

/-- Why a text is not a number. -/
inductive NumberDefect
  | empty
  | invalidDigit
  | tooLarge
deriving DecidableEq

/-- The defect in words. -/
def NumberDefect.message : NumberDefect → Text
  | .empty => "cannot parse integer from empty string"
  | .invalidDigit => "invalid digit found in string"
  | .tooLarge => "number too large to fit in target type"

/-- One more than the greatest number of 64 bits. -/
def numberBound : Nat := 18446744073709551616

/-- The number that goes on with these digits. Of two defects the one further left is reported. -/
def readDigits (sofar : Nat) : Text → Except NumberDefect Nat
  | [] => .ok sofar
  | c :: s =>
    if !Text.isAsciiDigit c then .error .invalidDigit
    else
      let n := 10 * sofar + (c.toNat - '0'.toNat)
      if n < numberBound then readDigits n s else .error .tooLarge

/-- The number that a text spells. -/
def readNumber : Text → Except NumberDefect Nat
  | [] => .error .empty
  | ['+'] => .error .invalidDigit
  | '+' :: s => readDigits 0 s
  | s => readDigits 0 s

/-- Why a text is not a range. -/
inductive RangeDefect
  | noDots
  | badStart (written : Text) (defect : NumberDefect)
  | badEnd (written : Text) (defect : NumberDefect)
  | reversed (first last : Nat)
deriving DecidableEq

/-- The defect of a written range in words. -/
def RangeDefect.message (range : Text) : RangeDefect → Text
  | .noDots => "expected START..END, got '" ++ range ++ "'"
  | .badStart written d => "invalid range start '" ++ written ++ "': " ++ d.message
  | .badEnd written d => "invalid range end '" ++ written ++ "': " ++ d.message
  | .reversed first last =>
    "range end " ++ Text.ofNat last ++ " is before start " ++ Text.ofNat first

/-- The range that a text spells. The dots are the first two in a row; blanks around the numbers do not
count. -/
def readRange (s : Text) : Except RangeDefect (Nat × Nat) :=
  match Text.cutAt? ".." s with
  | none => .error .noDots
  | some (start, stop) =>
    match readNumber (Text.trim start) with
    | .error d => .error (.badStart start d)
    | .ok first =>
      match readNumber (Text.trim stop) with
      | .error d => .error (.badEnd stop d)
      | .ok last => if last < first then .error (.reversed first last) else .ok (first, last)

end Crosscheck.CommandLine
