import Crosscheck.Engine.Sum
import Crosscheck.Text.Lines
/-!
# Script engines

An engine executes an artifact and gives the value of its last expression as JSON, or a complaint. A
rehearsed engine looks at nothing but the last line that is not blank.
-/

namespace Crosscheck

/-- Something that executes artifacts; executing one may change the state `σ`. -/
structure Engine (σ : Type) where
  name : Text
  eval : Text → StateM σ (Except Text Json)

namespace Engine

/-- The last line that is not blank, trimmed; empty if there is none. -/
def lastExpression (s : Text) : Text :=
  (((Text.lines s).reverse.map Text.trim).find? (!·.isEmpty)).getD []

/-- How a rehearsed engine answers. -/
inductive Rehearsal
  /-- By a list of expressions. -/
  | listed (answers : List (Text × Json))
  /-- By working out sums of literals. -/
  | sums
  /-- With a complaint. -/
  | failing (text : Text)

/-- The answer to an artifact. -/
def Rehearsal.respond (r : Rehearsal) (artifact : Text) : Except Text Json :=
  let line := lastExpression artifact
  match r with
  | .listed answers =>
    match answers.lookup line with
    | some v => .ok v
    | none => .error ("unresolved expression: " ++ line)
  | .sums => (Sum.evaluate line).mapError (Sum.Defect.message line)
  | .failing text => .error text

/-- The engine that answers by a rehearsal. -/
def rehearsed {σ : Type} (r : Rehearsal) : Engine σ where
  name := "mock"
  eval := fun artifact s => (r.respond artifact, s)

end Engine

end Crosscheck
