import Crosscheck.Text.Blank
import Crosscheck.Text.Replace
import Crosscheck.Translator.Basic
/-!
# Rehearsed translators

A translator that needs no program: it reads its source file as a real one would, keeps a record of the
call and answers by a fixed rule.
-/

namespace Crosscheck.Translator

/-- How a rehearsed translator answers. -/
inductive Rehearsal
  /-- The source itself. -/
  | echo
  /-- What is listed for the trimmed source, or the source itself. -/
  | listed (answers : List (Text × Text))
  /-- The source after substitutions in order. -/
  | substituted (pairs : List (Text × Text))
  /-- Always the same answer. -/
  | fixed (answer : Json)
  /-- Nothing. -/
  | silent
  /-- A failure. -/
  | failing (text : Text)

/-- An answer with one record. -/
def answer (s : Text) : Json := .array [.object [(recordKey, .string s)]]

/-- The answer to a source. -/
def Rehearsal.respond (r : Rehearsal) (source : Text) : Except Failure (Option Json) :=
  match r with
  | .echo => .ok (some (answer source))
  | .listed answers => .ok (some (answer ((answers.lookup (Text.trim source)).getD source)))
  | .substituted pairs =>
    .ok (some (answer (pairs.foldl (fun s (part, by_) => Text.replaceAll part by_ s) source)))
  | .fixed value => .ok (some value)
  | .silent => .ok none
  | .failing text => .error (.translator text)

/-- The translator that answers by a rehearsal. -/
def rehearsed (r : Rehearsal) : Translator where
  name := "mock"
  compile := fun arguments w =>
    match arguments.getLast? with
    | none => (.error (.translator "no source file given"), w)
    | some path =>
      match w.readText path with
      | .error fault => (.error (.io fault.message), w)
      | .ok source => (r.respond source, { w with calls := w.calls ++ [⟨arguments, source⟩] })

end Crosscheck.Translator
