import Crosscheck.Checker.Basic
import Crosscheck.Value.Display
/-!
# Checking inline snippets

An inline snippet is translated together with the lines that every snippet gets and those that the call
asks for. Checking it compares twice: the literal on its closing line with the end of the translated text,
and the expected value with what the artifact evaluates to. A comparison that fails shows both sides.
-/

namespace Crosscheck

/-- The snippet that follows a line of a file. -/
def World.locate (w : World) (path : Text) (line : Nat) (sentinel : Text)
    (preamble : Option (Nat × Nat)) : Except Failure Snippet :=
  match w.readText path with
  | .error fault => .error (.io ("Failed to read '" ++ path ++ "': " ++ fault.message))
  | .ok code => Snippet.locate code path line sentinel preamble

namespace Checker

/-- A translated snippet. -/
structure Inline where
  /-- The prelude, the preamble and the snippet, before blocks are resolved and the guard is exchanged. -/
  source : Text
  /-- The artifact. -/
  translated : Text
  /-- The literal on the closing line. -/
  expectation : Option Text
  fragment : Fragment
deriving DecidableEq

/-- Where a snippet is to be found. -/
structure Site where
  path : Text
  /-- The number of the line of the call. -/
  line : Nat
  /-- The numbers of the marker lines around the preamble. -/
  preamble : Option (Nat × Nat)
deriving DecidableEq

/-- The snippet at a site. -/
def locate (c : Checker) (site : Site) : Attempt World Snippet := fun w =>
  (w.locate site.path site.line c.config.sentinel site.preamble, w)

/-- Translate the snippet at a site. -/
def inline (c : Checker) (r : Request) (site : Site) : Attempt World Inline := do
  let snippet ← World.during .locate (c.locate site)
  let fragment := snippet.fragment.withLeadingLines c.config.prelude
  let translated ← c.run r none false fragment.text
  return ⟨fragment.text, translated, snippet.expectation, fragment⟩

/-- The last lines of a text, as many as the literal has. -/
def tailFor (literal translated : Text) : Text :=
  let wanted := max 1 (Text.lines (Text.trim literal)).length
  let pieces := Text.splitLines (Text.trim translated)
  Text.trim (Text.joinLines (pieces.drop (pieces.length - wanted)))

/-- Compare the literal with the end of the translated text, if there is a literal. -/
def compareTail (expectation : Option Text) (translated : Text) : Except Failure Unit :=
  match expectation with
  | none => .ok ()
  | some literal =>
    let tail := tailFor literal translated
    if tail = Text.trim literal then .ok () else .error (.mismatch literal tail)

/-- Compare the expected value with the actual one. -/
def compareValues (expected actual : Value) : Except Failure Unit :=
  if actual.equals expected then .ok () else .error (.mismatch expected.display actual.display)

/-- The value of an artifact on the session's engine. -/
def evaluate (artifact : Text) : Attempt Session Value :=
  World.during .evaluate (Session.evaluate artifact)

/-- Translate the snippet at a site and make both comparisons. -/
def check (c : Checker) (r : Request) (expected : Value) (site : Site) :
    Attempt Session (Inline × Value) := do
  let translation ← Session.inWorld (c.inline r site)
  compareTail translation.expectation translation.translated
  let value ← evaluate translation.translated
  compareValues expected value
  return (translation, value)

end Checker

end Crosscheck
