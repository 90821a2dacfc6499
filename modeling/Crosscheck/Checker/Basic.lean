import Crosscheck.Artifact
import Crosscheck.Checker.Session
import Crosscheck.Config.Reader
import Crosscheck.Patch.Patcher
import Crosscheck.Snippet.Locate
import Crosscheck.Translator.Invoker
/-!
# Checkers

A checker takes source text through the stages in their order: conditional blocks are resolved, the
translator is invoked, what it answers is patched, and an artifact is composed. The first stage that fails
ends the run, and its failure says which stage it was.
-/

namespace Crosscheck

/-- Everything that a run needs, made ready from a configuration. -/
structure Checker where
  config : Config
  resolver : Resolver
  invoker : Invoker
  patcher : Patcher

/-- What can be asked for in a single translation. -/
structure Checker.Request where
  /-- Also mend references to the Java standard library. -/
  javaLibrary : Bool
  /-- Make a test class. -/
  testCase : Bool
deriving DecidableEq

namespace Checker

/-- Ask for nothing in particular. -/
def Request.plain : Request := ⟨false, false⟩

/-- The checker for a configuration, whose translator finds its source files in `directory`. -/
def ofConfig (translator : Translator) (directory : Text) (config : Config) :
    Except Failure Checker :=
  match Resolver.ofTags config.tags config.branch with
  | .error f => .error f
  | .ok resolver => .ok {
      config := config
      resolver := resolver
      invoker := ⟨translator, config.importGuard, directory⟩
      patcher := .builtIn config.patch }

/-- The patch mode for a request. -/
def modeFor (c : Checker) (r : Request) : PatchMode :=
  if r.javaLibrary then { c.patcher.mode with qualifiedNames := true, stringCoercions := true }
  else c.patcher.mode

/-- Take a source text through all stages. -/
def run (c : Checker) (r : Request) (moduleName : Option Text) (wholeFile : Bool) (source : Text) :
    Attempt World Text := do
  let translated ← World.during .translate (c.invoker.translate (c.resolver.resolve source))
  let patched := c.patcher.patchWith (c.modeFor r) translated
  return Artifact.compose ⟨r.testCase, moduleName, wholeFile⟩ patched

/-- Translate a whole file. -/
def translate (c : Checker) (r : Request) (moduleName : Option Text) (source : Text) :
    Attempt World Text :=
  c.run r moduleName true source

end Checker

end Crosscheck
