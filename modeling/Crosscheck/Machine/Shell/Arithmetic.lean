import Crosscheck.Text.Blank
import Crosscheck.Text.WordChar
/-!
# Arithmetic of the shell

Whole numbers with the usual operators, by precedence and from left to right. A comparison that holds is
one, and one that does not is zero.
-/

namespace Crosscheck.Shell.Arithmetic

/-- A token of an expression. -/
inductive Token
  | number (i : Int)
  | sign (s : Text)
deriving DecidableEq

/-- The signs, a longer one before those that it starts with. -/
def signs : List Text :=
  ["&&", "||", "==", "!=", "<=", ">=", "<<", ">>", "<", ">", "+", "-", "*", "/", "%", "!", "~", "&", "|",
    "^", "(", ")"]

/-- The tokens of an expression, names being looked up. The bound must be greater than its length. -/
def tokens (lookup : Text → Int) : Nat → Text → Option (List Token)
  | 0, _ => none
  | _ + 1, [] => some []
  | bound + 1, c :: s =>
    if Text.isBlank c then tokens lookup bound s
    else if Text.isAsciiWord c then
      let word := c :: s.takeWhile Text.isAsciiWord
      let value : Option Int :=
        if !Text.isAsciiDigit c then some (lookup word)
        else if word.all Text.isAsciiDigit then some (Text.natOfDigits word) else none
      match value with
      | some value =>
        (tokens lookup bound (s.dropWhile Text.isAsciiWord)).map (.number value :: ·)
      | none => none
    else match signs.find? fun sign : Text => sign.isPrefixOf (c :: s) with
      | some sign => (tokens lookup bound ((c :: s).drop sign.length)).map (.sign sign :: ·)
      | none => none

/-- The operators of two operands, those that bind least first. -/
def ranks : List (List Text) :=
  [["||"], ["&&"], ["|"], ["^"], ["&"], ["==", "!="], ["<=", ">=", "<", ">"], ["<<", ">>"], ["+", "-"],
    ["*", "/", "%"]]

/-- One for what holds. -/
def ofBool (b : Bool) : Int := if b then 1 else 0

/-- What an operator makes of two numbers; none if they are divided by zero. -/
def apply (sign : Text) (a b : Int) : Option Int :=
  match String.ofList sign with
  | "||" => some (ofBool (a ≠ 0 || b ≠ 0))
  | "&&" => some (ofBool (a ≠ 0 && b ≠ 0))
  | "|" => some (a.toNat ||| b.toNat : Nat)
  | "^" => some (a.toNat ^^^ b.toNat : Nat)
  | "&" => some (a.toNat &&& b.toNat : Nat)
  | "==" => some (ofBool (a = b))
  | "!=" => some (ofBool (a ≠ b))
  | "<=" => some (ofBool (a ≤ b))
  | ">=" => some (ofBool (b ≤ a))
  | "<" => some (ofBool (a < b))
  | ">" => some (ofBool (b < a))
  | "<<" => some (a * (Nat.pow 2 (b.toNat % 64) : Nat))
  | ">>" => some (a.fdiv (Nat.pow 2 (b.toNat % 64) : Nat))
  | "+" => some (a + b)
  | "-" => some (a - b)
  | "*" => some (a * b)
  | "/" => if b = 0 then none else some (a.tdiv b)
  | "%" => if b = 0 then none else some (a.tmod b)
  | _ => none

mutual

/-- The value at the front of the tokens, made with operators of the given ranks. -/
def value : Nat → List (List Text) → List Token → Option (Int × List Token)
  | 0, _, _ => none
  | bound + 1, [], ts => operand bound ts
  | bound + 1, rank :: ranks, ts =>
    match value bound ranks ts with
    | some (a, ts) => more bound rank ranks a ts
    | none => none

/-- The value that `a` becomes with the operators of a rank that follow. -/
def more : Nat → List Text → List (List Text) → Int → List Token → Option (Int × List Token)
  | 0, _, _, _, _ => none
  | bound + 1, rank, ranks, a, ts =>
    match ts with
    | .sign s :: rest =>
      if rank.contains s then
        match value bound ranks rest with
        | some (b, rest) =>
          match apply s a b with
          | some c => more bound rank ranks c rest
          | none => none
        | none => none
      else some (a, ts)
    | _ => some (a, ts)

/-- A number, an expression in parentheses, or one of these after a sign. -/
def operand : Nat → List Token → Option (Int × List Token)
  | 0, _ => none
  | bound + 1, ts =>
    match ts with
    | .number i :: rest => some (i, rest)
    | .sign s :: rest =>
      if s = ['('] then
        match value bound ranks rest with
        | some (a, .sign t :: rest) => if t = [')'] then some (a, rest) else none
        | _ => none
      else match operand bound rest with
        | none => none
        | some (a, rest) =>
          if s = ['-'] then some (-a, rest)
          else if s = ['+'] then some (a, rest)
          else if s = ['!'] then some (ofBool (a = 0), rest)
          else if s = ['~'] then some (-a - 1, rest)
          else none
    | [] => none

end

/-- The value of an expression, names being looked up; an empty one is zero. -/
def evaluate (lookup : Text → Int) (s : Text) : Option Int :=
  match tokens lookup (s.length + 1) s with
  | none => none
  | some [] => some 0
  | some ts =>
    match value ((ranks.length + 3) * (ts.length + 1)) ranks ts with
    | some (a, []) => some a
    | _ => none

end Crosscheck.Shell.Arithmetic
