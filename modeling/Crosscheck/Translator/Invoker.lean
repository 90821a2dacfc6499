import Crosscheck.Conditional.Resolver
import Crosscheck.Translator.Basic
/-!
# Invoking a translator

The text to translate is put into a new file of a directory for such files, with the import guard that the
translator knows, and the file is kept.
-/

namespace Crosscheck

/-- A translator with all that is needed to invoke it. -/
structure Invoker where
  translator : Translator
  importGuard : ImportGuard
  /-- The directory for source files. -/
  directory : Text

namespace Invoker

/-- Keeps the translator from wrapping its output in a main function. -/
def noMainFlag : Text := "--no-main-file"

/-- Keeps the translator from printing what it translated. -/
def quietFlag : Text := "--quiet"

/-- The arguments for a source file. -/
def arguments (path : Text) : List Text := [noMainFlag, quietFlag, path]

/-- Put a text into a new source file. -/
def persist (i : Invoker) (s : Text) : Attempt World Text := fun w =>
  match w.writeFresh i.directory "skiff-" ".swift" s with
  | .ok (path, w) => (.ok path, w)
  | .error fault =>
    (.error (.io ("Failed to create source file in '" ++ i.directory ++ "': " ++ fault.message)), w)

/-- Translate a text. -/
def translate (i : Invoker) (s : Text) : Attempt World Text := do
  let path ← i.persist (i.importGuard.apply s)
  let answer ← i.translator.compile (arguments path)
  match Translator.unwrap answer with
  | .ok translated => return translated
  | .error f => throw f

end Invoker

end Crosscheck
