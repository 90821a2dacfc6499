import Crosscheck.Conditional.Tag
import Crosscheck.Pattern.Match
/-!
# Conditional blocks

The pattern of one block: an `#if` line with a recognized tag, a body without number signs, perhaps an
`#else` line with a second such body, and `#endif`, each marker indented by any blanks. As the bodies
hold no number sign, a block inside another one is matched before the outer one can be.
-/

namespace Crosscheck

namespace Pattern

/-- The pattern without its groups. -/
def ungrouped : Pattern → Pattern
  | .seq p q => .seq p.ungrouped q.ungrouped
  | .alt p q => .alt p.ungrouped q.ungrouped
  | .group _ p => p.ungrouped
  | .rounds p least most greedy => .rounds p.ungrouped least most greedy
  | p => p

end Pattern

namespace Block

open Pattern

/-- Spaces and tabs. -/
def blanks : Pattern := star spaceOrTab

/-- A body and the end of its last line, if there is a body. -/
def body (index : Nat) : Pattern :=
  opt (.seq (.group index (star (.set (.complement (.one '#'))))) (.char '\n'))

/-- The group that records what stands before the block. -/
def leadGroup : Nat := 1

/-- The group that records the body under the condition. -/
def primaryGroup : Nat := 2

/-- The group that records the body under `#else`. -/
def alternateGroup : Nat := 3

/-- A block whose condition is matched by `tag`. -/
def pattern (tag : Pattern) : Pattern :=
  chain [
    .group leadGroup (.alt (.anchor .textStart .word) (.char '\n')),
    blanks, literal "#if ", tag, blanks, .char '\n',
    body primaryGroup,
    opt (chain [blanks, literal "#else", blanks, .char '\n', body alternateGroup]),
    blanks, literal "#endif"]

/-- The same with the tags already written out, as text. -/
def written (tags : Text) : Text :=
  "(?P<lead>\\A|\\n)[ \\t]*#if (?:" ++ tags ++ ")[ \\t]*\\n(?:(?P<primary>[^#]*)\\n)?" ++
    "(?:[ \\t]*#else[ \\t]*\\n(?:(?P<alternate>[^#]*)\\n)?)?[ \\t]*#endif"

/-- The text of the block of a tag set. Without tags nothing must match. -/
def spelling (tags : TagSet) : Text :=
  written (if tags.isEmpty then "\\b\\B" else Text.join ['|'] (tags.map Tag.written))

/-- The names of the groups of a block. -/
def names : List (Text × Nat) :=
  [("lead", leadGroup), ("primary", primaryGroup), ("alternate", alternateGroup)]

/-- Any of the tags; nothing at all if there are none. -/
def anyTag (tags : List Pattern) : Pattern := if tags.isEmpty then never else choice tags

/-- The block of a tag set whose tags are patterns in their own right. The tags stand in a group of
the block, and nothing else in it is nested as deeply as they can be. Their own groups take room, and
are left out then, as nothing asks for them. -/
def ofPatterns (tags : List (Nested Pattern × List Text)) : Except Defect Regex :=
  let parts := tags.map (·.1.value)
  if (tags.flatMap (·.2) ++ names.map (·.1)).Nodup then
    if maxDepth < Nested.depthOf (tags.map (·.1.depth)) + 2 then .error .tooDeep
    else if maxRoom < (pattern (anyTag parts)).room then .error .tooLarge
    else .ok ⟨pattern (anyTag (parts.map ungrouped)), names⟩
  else .error .repeatedGroupName

/-- The block of a tag set. A tag that is no pattern in its own right may still become one in its
place, so the block is then read from its text as a whole. -/
def ofTags (tags : TagSet) : Except Defect Regex :=
  match tags.mapM Tag.pattern? with
  | some patterns => ofPatterns patterns
  | none => Regex.read (spelling tags)

end Block

end Crosscheck
