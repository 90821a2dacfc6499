import Crosscheck.Pattern.Match
/-!
# Replacing matches

A template says what a match is replaced with. A dollar sign calls on a group by number or name, in
braces or up to the end of the word; two dollar signs are one. A group that took no part, or that is not
there, is empty. A dollar sign that starts nothing stands for itself.
-/

namespace Crosscheck

/-- A piece of a template. -/
inductive Template.Piece
  | text (s : Text)
  | number (i : Nat)
  | name (s : Text)
deriving DecidableEq

namespace Template

/-- A reference is a number when it is written in digits, perhaps after a plus sign, and fits in 64
bits; otherwise it is a name. -/
def reference (s : Text) : Piece :=
  let digits := match s with
    | '+' :: rest => rest
    | _ => s
  let value := Text.natOfDigits digits
  if !digits.isEmpty && digits.all Text.isAsciiDigit && value < 18446744073709551616 then
    .number value
  else .name s

/-- The pieces of a template, after passing over `skip` characters of the piece found last. -/
def piecesFrom : Nat → Text → List Piece
  | _, [] => []
  | skip + 1, _ :: s => piecesFrom skip s
  | 0, c :: s =>
    if c = '$' then
      match s with
      | '$' :: _ => .text ['$'] :: piecesFrom 1 s
      | '\x7b' :: inner =>
        let name := inner.takeWhile (· ≠ '\x7d')
        if name.length < inner.length then reference name :: piecesFrom (name.length + 2) s
        else .text ['$'] :: piecesFrom 0 s
      | _ =>
        let name := s.takeWhile Text.isAsciiWord
        if name.isEmpty then .text ['$'] :: piecesFrom 0 s
        else reference name :: piecesFrom name.length s
    else .text [c] :: piecesFrom 0 s

/-- The pieces of a template. -/
def pieces (s : Text) : List Piece := piecesFrom 0 s

/-- What one piece stands for in a match. -/
def Piece.expand (r : Regex) (m : Match) : Piece → Text
  | .text s => s
  | .number i => (m.group? i).getD []
  | .name s =>
    match r.groupNamed? s with
    | some i => (m.group? i).getD []
    | none => []

/-- What a template stands for in a match. -/
def expand (r : Regex) (m : Match) (template : Text) : Text :=
  (pieces template).flatMap (·.expand r m)

end Template

namespace Match

/-- The text with every match, given with what replaces it, exchanged; `position` characters of the
text stand before `s`. -/
def exchange (position : Nat) (s : Text) : List (Match × Text) → Text
  | [] => s
  | (m, by_) :: rest =>
    s.take (m.start - position) ++ by_ ++ exchange m.stop (s.drop (m.stop - position)) rest

end Match

namespace Regex

/-- Replace every match by what the template stands for. -/
def replaceAll (r : Regex) (template s : Text) : Text :=
  Match.exchange 0 s ((r.allMatches s).map fun m => (m, Template.expand r m template))

end Regex

end Crosscheck
