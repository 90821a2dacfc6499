import Crosscheck.Json.Reader
import Crosscheck.World
/-!
# Translators

A translator gets arguments, of which the last is the path of a source file, and answers with JSON or
with nothing. The answer has to be a list that starts with a record of the translated text.
-/

namespace Crosscheck

/-- Something that translates source files. -/
structure Translator where
  name : Text
  /-- Run with the arguments; no answer if nothing came out. -/
  compile : List Text → Attempt World (Option Json)

namespace Translator

/-- The key of the translated text in a record. -/
def recordKey : Text := "translatedText"

/-- The translated text of a record: an object with the text under its key, or a list of just the
text. -/
def recordText? : Json → Option Text
  | .object fields =>
    match Json.field? recordKey fields with
    | some (.string s) => some s
    | _ => none
  | .array [.string s] => some s
  | _ => none

/-- The translated text of an answer. -/
def unwrap : Option Json → Except Failure Text
  | none => .error .noResult
  | some (.array []) => .error .noInitialRecord
  | some (.array (first :: _)) =>
    match recordText? first with
    | some s => .ok s
    | none => .error .noInitialRecord
  | some _ => .error .noInitialResult

end Translator

end Crosscheck
