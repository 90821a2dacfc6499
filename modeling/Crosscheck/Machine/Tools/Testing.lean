import Crosscheck.Machine.Tools.Basic
import Crosscheck.Text.Blank
/-!
# Tests

Tests of texts, numbers and files, as the arguments of `test` state them.
-/

namespace Crosscheck.Tool

/-- A test of one operand. -/
def testOne (l : Launch) (operator operand : Text) : Option Bool :=
  let entry := l.disk.entryAt l.here operand
  if operator = "-n".toList then some (!operand.isEmpty)
  else if operator = "-z".toList then some operand.isEmpty
  else if operator = "-e".toList || operator = "-r".toList || operator = "-w".toList then
    some (l.disk.holds l.here operand)
  else if operator = "-d".toList then some (entry matches .ok .directory)
  else if operator = "-f".toList then
    some (match entry with
      | .ok (.file _ _) => true
      | .ok (.tool _) => true
      | _ => false)
  else if operator = "-s".toList then
    some (match entry with
      | .ok (.file content _) => !content.isEmpty
      | .ok _ => true
      | .error _ => false)
  else if operator = "-x".toList then
    some (match entry with
      | .ok (.file _ executable) => executable
      | .ok _ => true
      | .error _ => false)
  else if operator = "-h".toList || operator = "-L".toList then
    some (match l.disk.locate l.here ((Path.parent? operand).map (fun p => if p.isEmpty then ['.'] else p)
        |>.getD ['.']) with
      | .ok place =>
        match l.disk.entry? (place ++ [(Path.fileName? operand).getD []]) with
        | some (.link _) => true
        | _ => false
      | .error _ => false)
  else none

/-- A test of two operands. -/
def testTwo (left operator right : Text) : Option Bool :=
  let compare (p : Int → Int → Bool) : Option Bool :=
    match int? (Text.trim left), int? (Text.trim right) with
    | some a, some b => some (p a b)
    | _, _ => none
  if operator = "=".toList || operator = "==".toList then some (left = right)
  else if operator = "!=".toList then some (left ≠ right)
  else if operator = "-eq".toList then compare (· == ·)
  else if operator = "-ne".toList then compare (· != ·)
  else if operator = "-lt".toList then compare (· < ·)
  else if operator = "-le".toList then compare (· ≤ ·)
  else if operator = "-gt".toList then compare (· > ·)
  else if operator = "-ge".toList then compare (· ≥ ·)
  else none

/-- A test, by the number of its arguments; none if it is malformed. -/
def holds (l : Launch) : Nat → List Text → Option Bool
  | 0, _ => none
  | bound + 1, arguments =>
    let joint (sign : Text) : Option (List Text × List Text) :=
      let first := arguments.takeWhile (· ≠ sign)
      if 0 < first.length && first.length + 1 < arguments.length then
        some (first, arguments.drop (first.length + 1))
      else none
    match arguments with
    | [] => some false
    | [a] => some (!a.isEmpty)
    | [a, b] => if a = ['!'] then some b.isEmpty else testOne l a b
    | [a, b, c] =>
      match testTwo a b c with
      | some answer => some answer
      | none => if a = ['!'] then (holds l bound [b, c]).map (!·) else none
    | a :: rest =>
      match joint "-o" with
      | some (first, second) => do
        let x ← holds l bound first
        let y ← holds l bound second
        return x || y
      | none =>
        match joint "-a" with
        | some (first, second) => do
          let x ← holds l bound first
          let y ← holds l bound second
          return x && y
        | none => if a = ['!'] then (holds l bound rest).map (!·) else none

end Crosscheck.Tool
