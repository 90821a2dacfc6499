import Crosscheck.Text.Basic
/-!
# Wildcards

A pattern of the shell: an asterisk stands for any text, a question mark for any character, brackets for
one of the characters in them, and a backslash takes the next character as it is.
-/

namespace Crosscheck.Shell.Glob

/-- Whether a character is among those listed, ranges included. -/
def listed (c : Char) : Text → Bool
  | a :: '-' :: b :: rest => (a.toNat ≤ c.toNat && c.toNat ≤ b.toNat) || listed c rest
  | a :: rest => a = c || listed c rest
  | [] => false

/-- The list of characters after an opening bracket, whether it is negated, and the pattern after it. -/
def bracket? (p : Text) : Option (Text × Bool × Text) :=
  let (negated, p) := match p with
    | '!' :: p => (true, p)
    | p => (false, p)
  match p with
  | [] => none
  | c :: rest =>
    let inner := rest.takeWhile (· ≠ ']')
    if inner.length < rest.length then some (c :: inner, negated, rest.drop (inner.length + 1))
    else none

/-- Whether a pattern matches a whole text. The bound must be greater than the pattern's length. -/
def matchesWithin : Nat → Text → Text → Bool
  | 0, _, _ => false
  | _ + 1, [], s => s.isEmpty
  | bound + 1, c :: p, s =>
    if c = '*' then (List.range (s.length + 1)).any fun n => matchesWithin bound p (s.drop n)
    else match s with
      | [] => false
      | d :: s =>
        if c = '?' then matchesWithin bound p s
        else if c = '\\' then
          match p with
          | e :: p => e = d && matchesWithin bound p s
          | [] => d = '\\' && s.isEmpty
        else if c = '[' then
          match bracket? p with
          | some (list, negated, p) => listed d list != negated && matchesWithin bound p s
          | none => d = '[' && matchesWithin bound p s
        else c = d && matchesWithin bound p s

/-- Whether a pattern matches a whole text. -/
def covers (p s : Text) : Bool := matchesWithin (p.length + 1) p s

/-- A text as a pattern of just itself. -/
def escape (s : Text) : Text :=
  s.flatMap fun c => if "*?[\\".toList.contains c then ['\\', c] else [c]

/-- Whether a pattern has a wildcard. -/
def isWild (p : Text) : Bool := p.any fun c => c == '*' || c == '?' || c == '['

/-- A text without what a pattern matches at its front, as little as possible or as much. -/
def dropFront (longest : Bool) (p s : Text) : Text :=
  let sizes := List.range (s.length + 1)
  match (if longest then sizes.reverse else sizes).find? fun n => covers p (s.take n) with
  | some n => s.drop n
  | none => s

/-- A text without what a pattern matches at its end, as little as possible or as much. -/
def dropBack (longest : Bool) (p s : Text) : Text :=
  let sizes := List.range (s.length + 1)
  match (if longest then sizes else sizes.reverse).find? fun n => covers p (s.drop n) with
  | some n => s.take n
  | none => s

end Crosscheck.Shell.Glob
