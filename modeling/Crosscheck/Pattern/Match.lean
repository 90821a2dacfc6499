import Crosscheck.Pattern.Basic
/-!
# Matching

The matcher tries the choices of a pattern in their order of preference and hands every place it gets to
to what must follow, so the first success is the preferred match. Of the rounds of an unbounded repetition only
the first may use up nothing. Searching takes the leftmost place at which there is a match.
-/

namespace Crosscheck

/-- A place in a text. -/
structure Cursor where
  /-- The character before the place. -/
  previous : Option Char
  /-- How many characters stand before the place. -/
  offset : Nat
  /-- The text after the place. -/
  rest : Text

namespace Cursor

/-- The place before the first character. -/
def start (s : Text) : Cursor := ⟨none, 0, s⟩

/-- The place after the next character. -/
def next? (c : Cursor) : Option (Char × Cursor) :=
  match c.rest with
  | [] => none
  | ch :: rest => some (ch, ⟨some ch, c.offset + 1, rest⟩)

/-- The text between two places. -/
def textTo (c d : Cursor) : Text := c.rest.take (d.offset - c.offset)

end Cursor

/-- The texts that groups recorded, the latest first. -/
abbrev Groups := List (Nat × Text)

namespace Anchor

/-- Whether the condition holds between `before` and `after`, either of which may be missing. -/
def holds (letters : CharSet) (before after : Option Char) (a : Anchor) : Bool :=
  let wordBefore := before.any letters.has
  let wordAfter := after.any letters.has
  match a with
  | .textStart => before.isNone
  | .textEnd => after.isNone
  | .lineStart => before.isNone || before == some '\n'
  | .lineEnd => after.isNone || after == some '\n'
  | .returnLineStart =>
    before.isNone || before == some '\n' || (before == some '\r' && after != some '\n')
  | .returnLineEnd =>
    after.isNone || after == some '\r' || (after == some '\n' && before != some '\r')
  | .wordEdge => wordBefore != wordAfter
  | .notWordEdge => wordBefore == wordAfter
  | .wordStart => !wordBefore && wordAfter
  | .wordEnd => wordBefore && !wordAfter
  | .wordStartHalf => !wordBefore
  | .wordEndHalf => !wordAfter

end Anchor

namespace Pattern

variable {α : Type}

/-- What follows a part of a match: given the place reached and the groups recorded, a result or
nothing. -/
abbrev Continuation (α : Type) := Cursor → Groups → Option α

/-- Exactly `n` rounds of `step`. -/
def exactly (step : Continuation α → Continuation α) (k : Continuation α) : Nat → Continuation α
  | 0 => k
  | n + 1 => step (exactly step k n)

/-- Try both ways, `first` before `second` if `inOrder` says so, the other way round if not. -/
def either (inOrder : Bool) (first second : Continuation α) : Continuation α := fun c g =>
  if inOrder then
    match first c g with
    | some r => some r
    | none => second c g
  else
    match second c g with
    | some r => some r
    | none => first c g

/-- Up to `n` rounds of `step`. -/
def upTo (step : Continuation α → Continuation α) (greedy : Bool) (k : Continuation α) :
    Nat → Continuation α
  | 0 => k
  | n + 1 => either greedy (step (upTo step greedy k n)) k

/-- Up to `n` further rounds of `step`, each of which uses up something. -/
def further (step : Continuation α → Continuation α) (greedy : Bool) (k : Continuation α) :
    Nat → Continuation α
  | 0 => k
  | n + 1 => fun c g =>
    either greedy
      (step fun d h => if d.offset = c.offset then none else further step greedy k n d h) k c g

/-- A round of `step` and any number of further ones. A first round that uses up nothing is the only
one. As further rounds use up something, the characters ahead bound their number. -/
def repeated (step : Continuation α → Continuation α) (greedy : Bool) (k : Continuation α) :
    Continuation α := fun c g =>
  step (fun d h => if d.offset = c.offset then k d h
    else further step greedy k d.rest.length d h) c g

/-- At least `n` rounds of `step`. -/
def atLeast (step : Continuation α → Continuation α) (greedy : Bool) (k : Continuation α) :
    Nat → Continuation α
  | 0 => either greedy (repeated step greedy k) k
  | n + 1 => exactly step (repeated step greedy k) n

/-- Match a pattern and go on with `k`; the first success in order of preference. -/
def run : Pattern → Continuation α → Continuation α
  | .empty, k => k
  | .char ch, k => fun c g =>
    match c.rest with
    | [] => none
    | d :: rest => if d = ch then k ⟨some d, c.offset + 1, rest⟩ g else none
  | .set s, k => fun c g =>
    match c.rest with
    | [] => none
    | d :: rest => if s.has d then k ⟨some d, c.offset + 1, rest⟩ g else none
  | .anchor a letters, k => fun c g =>
    if a.holds letters c.previous c.rest.head? then k c g else none
  | .seq p q, k => p.run (q.run k)
  | .alt p q, k => fun c g =>
    match p.run k c g with
    | some r => some r
    | none => q.run k c g
  | .group i p, k => fun c g => p.run (fun d h => k d ((i, c.textTo d) :: h)) c g
  | .rounds p least (some most) greedy, k =>
    exactly (p.run ·) (upTo (p.run ·) greedy k (most - least)) least
  | .rounds p least none greedy, k => atLeast (p.run ·) greedy k least

end Pattern

/-- A match: where it starts and ends, and what its groups recorded. -/
structure Match where
  start : Nat
  stop : Nat
  groups : Groups

namespace Match

/-- Whether nothing was matched but a place. -/
def isEmpty (m : Match) : Bool := m.start == m.stop

/-- The text of a group that took part. -/
def group? (m : Match) (i : Nat) : Option Text := m.groups.lookup i

end Match

namespace Regex

/-- The preferred match that starts at the cursor, and the place behind it. -/
def matchAt? (r : Regex) (c : Cursor) : Option (Match × Cursor) :=
  r.pattern.run (fun d g => some (⟨c.offset, d.offset, (0, c.textTo d) :: g⟩, d)) c []

/-- The leftmost match at or after the place described. -/
def findFrom (r : Regex) (previous : Option Char) (offset : Nat) : Text → Option (Match × Cursor)
  | [] => r.matchAt? ⟨previous, offset, []⟩
  | ch :: rest =>
    match r.matchAt? ⟨previous, offset, ch :: rest⟩ with
    | some m => some m
    | none => findFrom r (some ch) (offset + 1) rest

/-- The leftmost match at or after the cursor. -/
def find? (r : Regex) (c : Cursor) : Option (Match × Cursor) := r.findFrom c.previous c.offset c.rest

/-- The matches from the cursor on, each at or after the end of the one before. An empty match right
at the end of the one before does not count; the search goes on one character further. -/
def matchesFrom (r : Regex) : Nat → Cursor → Option Nat → List Match
  | 0, _, _ => []
  | bound + 1, c, last =>
    match r.find? c with
    | none => []
    | some (m, after) =>
      if m.isEmpty && last == some m.stop then
        match c.next? with
        | none => []
        | some (_, c) =>
          match r.find? c with
          | none => []
          | some (m, after) => m :: matchesFrom r bound after (some m.stop)
      else m :: matchesFrom r bound after (some m.stop)

/-- All matches in a text, from left to right and without overlap. -/
def allMatches (r : Regex) (s : Text) : List Match :=
  r.matchesFrom (s.length + 2) (Cursor.start s) none

/-- The number of the group with a name. -/
def groupNamed? (r : Regex) (name : Text) : Option Nat := r.names.lookup name

end Regex

end Crosscheck
