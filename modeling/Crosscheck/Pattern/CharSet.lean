import Crosscheck.Text.Blank
import Crosscheck.Text.CaseFold
import Crosscheck.Text.WordChar
/-!
# Sets of characters

A set is built from ranges and named properties by complement, union and intersection, and can be
widened to all case variants of its members.
-/

namespace Crosscheck

/-- A set of characters. -/
inductive CharSet
  | none
  | range (first last : Char)
  /-- Word characters of any script. -/
  | word
  /-- Decimal digits of any script. -/
  | digit
  /-- Blank characters. -/
  | blank
  /-- Code points in one of the ranges. -/
  | table (ranges : List (Nat × Nat))
  | complement (s : CharSet)
  | union (s t : CharSet)
  | inter (s t : CharSet)
  /-- Members together with all their case variants. -/
  | variants (s : CharSet)
  /-- Members together with their case variants within ASCII. -/
  | asciiVariants (s : CharSet)
deriving DecidableEq

namespace CharSet

/-- An ASCII letter in its other case. -/
def otherCase (c : Char) : Char :=
  let n := c.toNat
  if 65 ≤ n ∧ n ≤ 90 then Char.ofNat (n + 32)
  else if 97 ≤ n ∧ n ≤ 122 then Char.ofNat (n - 32)
  else c

/-- Membership. -/
def has : CharSet → Char → Bool
  | .none, _ => false
  | .range a b, c => a.toNat ≤ c.toNat && c.toNat ≤ b.toNat
  | .word, c => Text.isWord c
  | .digit, c => Text.isDigit c
  | .blank, c => Text.isBlank c
  | .table ranges, c => Text.inRanges ranges c.toNat
  | .complement s, c => !s.has c
  | .union s t, c => s.has c || t.has c
  | .inter s t, c => s.has c && t.has c
  | .variants s, c => s.has c || (Text.caseVariants c).any s.has
  | .asciiVariants s, c => s.has c || s.has (otherCase c)

/-- Just one character. -/
def one (c : Char) : CharSet := .range c c

/-- Every character. -/
def all : CharSet := .complement .none

/-- The members of any of the sets. -/
def unions : List CharSet → CharSet
  | [] => .none
  | [s] => s
  | s :: t :: rest => .union s (unions (t :: rest))

/-- The members of `s` outside `t`. -/
def minus (s t : CharSet) : CharSet := .inter s (.complement t)

end CharSet

end Crosscheck
