import Crosscheck.Failure
import Crosscheck.Snippet.Fragment
import Crosscheck.Text.Blank
import Crosscheck.Text.Replace
/-!
# Locating a snippet

A snippet starts on the line after its call site and ends before the first line whose trimmed text
starts with the sentinel. That line may go on with a colon and the literal that the snippet is expected
to evaluate to. Preamble lines are those strictly between two marker lines. Returns which the target
language forbids at the top level are taken out: the marked ones everywhere, a plain one only from the
last line, where it gives the snippet's value.
-/

namespace Crosscheck

/-- A snippet with the literal written after its sentinel. -/
structure Snippet where
  fragment : Fragment
  expectation : Option Text
deriving DecidableEq

namespace Snippet

/-- The sentinel unless another one is configured. -/
def defaultSentinel : Text := "\x7d verify: \x7b"

/-- Marks a return that the target language does not want. -/
def noReturnMarker : Text := "return /* noreturn */"

/-- How a returned value begins. -/
def returnLead : Text := "return "

/-- Whether a line ends the snippet. -/
def closes (sentinel line : Text) : Bool := sentinel.isPrefixOf (Text.trim line)

/-- The literal on a closing line: what follows the sentinel, a colon and a space. -/
def expectationOn (sentinel line : Text) : Option Text :=
  match Text.after? sentinel (Text.trim line) with
  | none => none
  | some rest =>
    match Text.after? ": " rest with
    | none => none
    | some literal =>
      let literal := Text.trim literal
      if literal.isEmpty then none else some literal

/-- The lines strictly between the marker lines numbered `first` and `last` from one. -/
def between (lines : List Text) (first last : Nat) : List Text :=
  let start := min first lines.length
  let stop := max (min (last - 1) lines.length) start
  (lines.drop start).take (stop - start)

/-- Take marked returns out of a line. -/
def dropMarker (line : Text) : Text := Text.replaceAll noReturnMarker [] line

/-- Take a plain return off a line. -/
def dropReturn (line : Text) : Text :=
  match Text.after? returnLead (Text.trim line) with
  | some value => value
  | none => line

/-- Take a plain return off the last line. -/
def dropLastReturn : List Text → List Text
  | [] => []
  | [line] => [dropReturn line]
  | line :: rest => line :: dropLastReturn rest

/-- Take out the returns that are forbidden at the top level. -/
def normalizeReturns (lines : List Text) : List Text := dropLastReturn (lines.map dropMarker)

/-- The snippet that follows line `startLine` of a text. -/
def locate (code path : Text) (startLine : Nat) (sentinel : Text)
    (preamble : Option (Nat × Nat)) : Except Failure Snippet :=
  let lines := Text.splitLines code
  let ahead := lines.drop startLine
  match ahead.dropWhile (!closes sentinel ·) with
  | [] => .error (.snippetNotFound path startLine sentinel)
  | closing :: _ =>
    let leading := match preamble with
      | some (first, last) => between lines first last
      | none => []
    let body := ahead.takeWhile (!closes sentinel ·)
    .ok {
      fragment := {
        path := path
        firstLine := startLine + 1
        preambleLength := leading.length
        lines := normalizeReturns (leading ++ body) }
      expectation := expectationOn sentinel closing }

end Snippet

end Crosscheck
