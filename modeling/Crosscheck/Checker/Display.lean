import Crosscheck.Checker.Basic
/-!
# Checkers with their parts shown

The form of a checker that shows its configuration, its translator and the state of its engine.
-/

namespace Crosscheck

/-- A tag with its kind. -/
def Tag.debug : Tag → Text
  | .literal s => Text.tagged "Literal" s
  | .pattern s => Text.tagged "Pattern" s

/-- A branch by its name. -/
def Branch.debug : Branch → Text
  | .primary => "Primary"
  | .alternate => "Alternate"

/-- A mode with every group. -/
def PatchMode.debug (m : PatchMode) : Text :=
  Text.withParts "PatchMode" (RuleGroup.all.map fun g =>
    (g.key, if m.enables g then "true" else "false"))

/-- A guard with both its parts. -/
def ImportGuard.debug (g : ImportGuard) : Text :=
  Text.withParts "SelfImportGuard"
    [("from", Text.quoted g.source), ("to", Text.quoted g.target)]

/-- A configuration with its settings. -/
def Config.debug (c : Config) : Text :=
  Text.withParts "HarnessConfig" [
    ("sentinel", Text.quoted c.sentinel),
    ("prelude", Text.bracketed (c.prelude.map Text.quoted)),
    ("tags", "TagSet(" ++ Text.bracketed (c.tags.map Tag.debug) ++ ")"),
    ("branch", c.branch.debug),
    ("patch", c.patch.debug),
    ("self_import_guard", c.importGuard.debug)]

/-- An invoker with the name of its translator. -/
def Invoker.debug (i : Invoker) : Text :=
  Text.withParts "TranslationInvoker" [
    ("translator", Text.quoted i.translator.name),
    ("guard", i.importGuard.debug),
    ("temp_dir", Text.quoted i.directory)]

/-- A checker in a session. -/
def Checker.debug (c : Checker) (s : Session) : Text :=
  Text.withParts "Skiff" [
    ("config", c.config.debug),
    ("invoker", c.invoker.debug),
    ("bridge", Text.optional (s.engine.map fun cache =>
      Text.withParts "EvaluationBridge" [("cache", cache.debug)]))]

end Crosscheck
