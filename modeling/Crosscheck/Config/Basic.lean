import Crosscheck.Conditional.Resolver
import Crosscheck.Patch.Rule
import Crosscheck.Snippet.Locate
/-!
# Configuration

What a run can be told to do differently. Every part has a default.
-/

namespace Crosscheck

/-- The settings of a run. -/
structure Config where
  /-- Ends an inline snippet. -/
  sentinel : Text
  /-- Lines put before every inline snippet. -/
  prelude : List Text
  /-- The tags of conditional blocks that mean the target. -/
  tags : TagSet
  /-- Which part of a conditional block is kept. -/
  branch : Branch
  /-- The active groups of patch rules. -/
  patch : PatchMode
  importGuard : ImportGuard
deriving DecidableEq

namespace Config

/-- The settings unless others are given. -/
def default : Config where
  sentinel := Snippet.defaultSentinel
  prelude := ["let jvm = true"]
  tags := Tag.defaultSet
  branch := .primary
  patch := .default
  importGuard := .default

end Config

end Crosscheck
