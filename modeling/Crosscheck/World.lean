import Crosscheck.Failure
import Crosscheck.Machine.Shell.Run
/-!
# The world of a run

What a run reads and changes outside itself: the disk, the place where it runs, its environment, what the
programs that share its output have printed, and the calls that a rehearsed translator has seen. A step
that can fail keeps the changes it made before it failed.
-/

namespace Crosscheck

/-- A call of a translator, with the content of its source file at that time. -/
structure Call where
  arguments : List Text
  source : Text
deriving DecidableEq

/-- The outside of a run. -/
structure World where
  disk : Disk
  here : Place
  environment : List (Text × Text)
  /-- What was printed to the output of the run itself. -/
  output : Bytes
  /-- The calls seen by a rehearsed translator, the first one first. -/
  calls : List Call

/-- A step that changes a state and gives a result or a failure. -/
abbrev Attempt (σ α : Type) := ExceptT Failure (StateM σ) α

namespace World

/-- The text of a place as a path from the root. -/
def placeText (place : Place) : Text := place.flatMap fun name => '/' :: name

/-- The value of a variable of the environment. -/
def valueOf? (w : World) (name : Text) : Option Text := w.environment.lookup name

/-- What a program is started with. -/
def launch (w : World) (extra : List (Text × Text)) : Launch where
  disk := w.disk
  here := w.here
  environment := extra ++ w.environment.filter fun v => !extra.any (·.1 = v.1)
  input := []

/-- Read a text file. -/
def readText (w : World) (path : Text) : Except Fault Text := w.disk.readText w.here path

/-- Write a text file. -/
def writeText (w : World) (path content : Text) : Except Fault World :=
  (w.disk.write w.here path (Utf8.encode content)).map fun disk => { w with disk := disk }

/-- Put a text into a new file of a directory: the path of the file from the root, and the world with
it. -/
def writeFresh (w : World) (directory lead tail content : Text) : Except Fault (Text × World) :=
  let base := Path.join (placeText w.here) directory
  match w.disk.locate w.here base with
  | .error fault => .error fault
  | .ok place =>
    match w.disk.entry? place with
    | some .directory =>
      let name := w.disk.freshName place lead tail
      .ok (Path.join base name,
        { w with disk := w.disk.put (place ++ [name]) (.file (Utf8.encode content) false) })
    | some _ => .error .notDirectory
    | none => .error .notFound

/-- Raise a failure. -/
def fail {σ α : Type} (f : Failure) : Attempt σ α := throw f

/-- Let a failure of the step note the stage that it is part of. -/
def during {σ α : Type} (stage : Stage) (step : Attempt σ α) : Attempt σ α :=
  fun s => match step s with
    | (.ok a, s) => (.ok a, s)
    | (.error f, s) => (.error (f.during stage), s)

end World

end Crosscheck
