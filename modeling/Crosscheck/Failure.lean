import Crosscheck.Text.Parts
/-!
# Failures

Everything that can go wrong, as causes. A failure raised inside the pipeline carries the stage it was
raised in, once. `Failure.message` holds the wording for people and `Failure.debug` the form that
shows the parts.
-/

namespace Crosscheck

/-- The stages of the pipeline. -/
inductive Stage
  | locate | resolve | translate | patch | compose | evaluate
deriving DecidableEq

namespace Stage

def name : Stage → Text
  | .locate => "locate"
  | .resolve => "resolve"
  | .translate => "translate"
  | .patch => "patch"
  | .compose => "compose"
  | .evaluate => "evaluate"

def debug : Stage → Text
  | .locate => "Locate"
  | .resolve => "Resolve"
  | .translate => "Translate"
  | .patch => "Patch"
  | .compose => "Compose"
  | .evaluate => "Evaluate"

end Stage

/-- What went wrong. -/
inductive Failure
  /-- No line at or after the start line begins with the sentinel. -/
  | snippetNotFound (path : Text) (startLine : Nat) (sentinel : Text)
  /-- A file could not be read or written, or a program not be started. -/
  | io (text : Text)
  /-- A pattern of a tag or rule is malformed. -/
  | invalidPattern (text : Text)
  /-- The configuration could not be loaded. -/
  | config (text : Text)
  /-- The translator answered nothing. -/
  | noResult
  /-- The translator answered something other than a list. -/
  | noInitialResult
  /-- The list does not start with a record of a translated text. -/
  | noInitialRecord
  /-- The translator itself failed. -/
  | translator (text : Text)
  /-- The script engine refused the artifact. -/
  | eval (text : Text) (artifact : Text)
  /-- The script engine could not be built. -/
  | engineUnavailable (text : Text)
  /-- What came out differs from what was expected. -/
  | mismatch (expected actual : Text)
  /-- The build ended with a status other than zero. -/
  | buildFailed (exitCode : Int)
  /-- The project is not laid out as it has to be. -/
  | layout (text : Text)
  /-- A failure together with the stage that raised it. -/
  | inStage (stage : Stage) (source : Failure)
deriving DecidableEq

namespace Failure

instance : Inhabited Failure := ⟨.noResult⟩

/-- Note the stage, unless one is noted already. -/
def during (stage : Stage) : Failure → Failure
  | .inStage s f => .inStage s f
  | f => .inStage stage f

/-- The cause without any stage. -/
def root : Failure → Failure
  | .inStage _ f => f.root
  | f => f

/-- The stage noted on the outside. -/
def stage? : Failure → Option Stage
  | .inStage s _ => some s
  | _ => none

/-- The failure in words. -/
def message : Failure → Text
  | .snippetNotFound path line sentinel =>
    "Unable to find a line starting with '" ++ sentinel ++ "' after line " ++ Text.ofNat line ++
      " of " ++ path
  | .io text => "I/O error: " ++ text
  | .invalidPattern text => "Invalid pattern: " ++ text
  | .config text => "Configuration error: " ++ text
  | .noResult => "Translator produced no result"
  | .noInitialResult => "Translator result was not a list"
  | .noInitialRecord => "First translator result is missing or not a translation record"
  | .translator text => "Translator error: " ++ text
  | .eval text artifact => "Evaluation error: " ++ text ++ "\n--- artifact ---\n" ++ artifact
  | .engineUnavailable text => "Script engine unavailable: " ++ text
  | .mismatch expected actual =>
    "Expectation mismatch\n--- expected ---\n" ++ expected ++ "\n--- actual ---\n" ++ actual
  | .buildFailed code => "Build failed with exit code " ++ Text.ofInt code
  | .layout text => "Project layout error: " ++ text
  | .inStage s f => '[' :: s.name ++ "] " ++ f.message

/-- The name of the kind of failure. -/
def kind : Failure → Text
  | .snippetNotFound .. => "SnippetNotFound"
  | .io _ => "Io"
  | .invalidPattern _ => "InvalidPattern"
  | .config _ => "Config"
  | .noResult => "NoResult"
  | .noInitialResult => "NoInitialResult"
  | .noInitialRecord => "NoInitialTranslationResult"
  | .translator _ => "Translator"
  | .eval .. => "Eval"
  | .engineUnavailable _ => "EngineUnavailable"
  | .mismatch .. => "ExpectationMismatch"
  | .buildFailed _ => "BuildFailed"
  | .layout _ => "Layout"
  | .inStage .. => "InStage"

/-- The failure with its parts shown. -/
def debug : Failure → Text
  | .snippetNotFound path line sentinel =>
    Text.withParts "SnippetNotFound" [("path", Text.quoted path), ("start_line", Text.ofNat line),
      ("sentinel", Text.quoted sentinel)]
  | .eval text artifact =>
    Text.withParts "Eval" [("message", Text.quoted text), ("artifact", Text.quoted artifact)]
  | .mismatch expected actual =>
    Text.withParts "ExpectationMismatch" [("expected", Text.quoted expected),
      ("actual", Text.quoted actual)]
  | .buildFailed code => Text.withParts "BuildFailed" [("exit_code", Text.ofInt code)]
  | .inStage s f => Text.withParts "InStage" [("stage", s.debug), ("source", f.debug)]
  | .io text => Text.tagged "Io" text
  | .invalidPattern text => Text.tagged "InvalidPattern" text
  | .config text => Text.tagged "Config" text
  | .translator text => Text.tagged "Translator" text
  | .engineUnavailable text => Text.tagged "EngineUnavailable" text
  | .layout text => Text.tagged "Layout" text
  | .noResult => "NoResult"
  | .noInitialResult => "NoInitialResult"
  | .noInitialRecord => "NoInitialTranslationResult"

end Failure

end Crosscheck
