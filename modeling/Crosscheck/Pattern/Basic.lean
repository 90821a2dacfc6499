import Crosscheck.Pattern.CharSet
/-!
# Patterns

A pattern describes texts together with an order of preference: of two alternatives the left one is
preferred, and a repetition prefers more rounds or fewer. Groups record the text that a part matched.
-/

namespace Crosscheck

/-- A condition on the place between two characters. -/
inductive Anchor
  | textStart | textEnd
  /-- After a newline or at the start of the text. -/
  | lineStart
  /-- Before a newline or at the end of the text. -/
  | lineEnd
  /-- The same with a carriage return and newline as one line break. -/
  | returnLineStart | returnLineEnd
  /-- Between a word character and another one, or the negation of that. -/
  | wordEdge | notWordEdge
  | wordStart | wordEnd
  /-- No word character before, or none behind. -/
  | wordStartHalf | wordEndHalf
deriving DecidableEq

/-- A pattern. -/
inductive Pattern
  | empty
  | char (c : Char)
  | set (s : CharSet)
  /-- A condition, with the word characters that it goes by. -/
  | anchor (a : Anchor) (letters : CharSet)
  | seq (p q : Pattern)
  | alt (p q : Pattern)
  | group (index : Nat) (p : Pattern)
  /-- At least `least` and at most `most` rounds, as many as possible if `greedy`. -/
  | rounds (p : Pattern) (least : Nat) (most : Option Nat) (greedy : Bool)
deriving DecidableEq

namespace Pattern

/-- One pattern after the other. -/
def chain : List Pattern → Pattern
  | [] => .empty
  | [p] => p
  | p :: q :: rest => .seq p (chain (q :: rest))

/-- Any of the patterns, the first one preferred. -/
def choice : List Pattern → Pattern
  | [] => .empty
  | [p] => p
  | p :: q :: rest => .alt p (choice (q :: rest))

/-- Exactly this text. -/
def literal (s : Text) : Pattern := chain (s.map .char)

/-- Any number of rounds, the more the better. -/
def star (p : Pattern) : Pattern := .rounds p 0 none true

/-- At least one round, the more the better. -/
def plus (p : Pattern) : Pattern := .rounds p 1 none true

/-- One round if possible. -/
def opt (p : Pattern) : Pattern := .rounds p 0 (some 1) true

/-- The edge of a word. -/
def wordEdge : Pattern := .anchor .wordEdge .word

/-- No place at all: an edge of a word that is none. -/
def never : Pattern := .seq (.anchor .wordEdge .word) (.anchor .notWordEdge .word)

/-- A space or a tab. -/
def spaceOrTab : Pattern := .set (.union (.one ' ') (.one '\t'))

end Pattern

/-- A pattern with the names of its groups. Group 0 is the whole match and has no name. -/
structure Regex where
  pattern : Pattern
  /-- The names of groups, each with its number. -/
  names : List (Text × Nat)
deriving DecidableEq

end Crosscheck
