import Crosscheck.Failure
import Crosscheck.Pattern.Reader
/-!
# Tags

A tag names the target that a conditional block is meant for, either by its exact text or by a pattern.
A tag set lists tags that all mean the same target.
-/

namespace Crosscheck

/-- One spelling of a target. -/
inductive Tag
  /-- Exactly this text. -/
  | literal (s : Text)
  /-- Any text that the pattern matches. -/
  | pattern (s : Text)
deriving DecidableEq

/-- Spellings that all mean the same target. -/
abbrev TagSet := List Tag

namespace Tag

/-- The spellings that are recognized unless others are configured. -/
def defaultSet : TagSet :=
  [.literal "SKIP", .literal "KOTLIN", .pattern "os\\(Android\\)"]

/-- The tag as part of a written pattern. -/
def written : Tag → Text
  | .literal s => Pattern.escape s
  | .pattern s => "(?:" ++ s ++ ")"

/-- The tag as a pattern of its own, with the names of its groups; none if it is malformed, or if it
ends in a comment that would go on after it. Unicode properties are not read, so a tag with one, such as `\pL`,
counts as malformed here. The depth counts the group around a written pattern. -/
def pattern? : Tag → Option (Pattern.Nested Pattern × List Text)
  | .literal s => some (⟨.literal s, Pattern.Nested.depthOf (s.map fun _ => 0)⟩, [])
  | .pattern s =>
    match Pattern.readWhole s with
    | .ok (p, progress) =>
      if progress.openComment then none else some (p.wrap id, progress.names.map (·.1))
    | .error _ => none

end Tag

/-- Which part of a conditional block is kept. -/
inductive Branch
  /-- What stands under the condition. -/
  | primary
  /-- What stands under `#else`; a block without it disappears. -/
  | alternate
deriving DecidableEq

end Crosscheck
