import Crosscheck.Text.Basic
/-!
# Shell commands

A script as a command: words made of pieces that are taken as they are, looked up or computed by another
script, and commands joined in sequence, by success or failure, in pipes and in loops.
-/

namespace Crosscheck.Shell

/-- A piece of a word. What stands in quotes is never cut at blanks. -/
inductive Piece
  | text (s : Text) (quoted : Bool)
  /-- The value of a parameter, as written in braces. -/
  | parameter (written : Text) (quoted : Bool)
  /-- What a script prints. -/
  | output (script : Text) (quoted : Bool)
  /-- The value of an expression. -/
  | sum (expression : Text) (quoted : Bool)
deriving DecidableEq

abbrev Word := List Piece

/-- What is done with a channel. -/
inductive Direction
  | read | write | append | duplicate
  /-- The target itself is what can be read. -/
  | here
deriving DecidableEq

/-- A channel connected to a file or to another channel. -/
structure Redirection where
  channel : Nat
  direction : Direction
  target : Word
deriving DecidableEq

/-- A command. -/
inductive Command
  | nothing
  /-- Assignments, a program with its arguments, and redirections, on a line of the script. -/
  | simple (line : Nat) (assignments : List (Text × Word)) (words : List Word)
      (redirections : List Redirection)
  | sequence (first second : Command)
  | ifSucceeds (first second : Command)
  | ifFails (first second : Command)
  | negated (c : Command)
  | pipe (first second : Command)
  /-- A group in a shell of its own. -/
  | subshell (c : Command)
  | redirected (c : Command) (redirections : List Redirection)
  | choose (condition consequent alternative : Command)
  /-- The body if one of the patterns matches the subject. -/
  | select (subject : Word) (patterns : List Word) (body otherwise : Command)
  /-- The body for each of the words, or for each argument of the script. -/
  | forEach (name : Text) (words : Option (List Word)) (body : Command)
  /-- The body as long as the condition succeeds, or as long as it fails. -/
  | loop (whileTrue : Bool) (condition body : Command)
  /-- Give a name to a command. -/
  | define (name : Text) (body : Command)

end Crosscheck.Shell
