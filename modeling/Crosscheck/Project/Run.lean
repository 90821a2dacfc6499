import Crosscheck.Checker.Basic
import Crosscheck.Project.Basic
import Crosscheck.Project.Build
/-!
# Running a project

Every source file of a project is translated into a file beside it, those under `Sources` first, those
under `Tests` as test cases, each folder in the order of the paths. A build may follow. The first failure
ends the run; what has been written by then stays.
-/

namespace Crosscheck.Project

/-- The extension of source files. -/
def sourceExtension : Text := "swift"

/-- The extension of written files. -/
def targetExtension : Text := "kt"

/-- The source files at any depth below a place, which the path leads to. A link is not gone through, but
may itself be named as a source file. The bound on the depth is the height of the disk. -/
def sourcesBelow (d : Disk) : Nat → Place → Text → List Text
  | 0, _, _ => []
  | depth + 1, place, path => (d.children place).flatMap fun (name, e) =>
    let path := Path.join path name
    match e with
    | .directory => sourcesBelow d depth (place ++ [name]) path
    | _ => if Path.extension? path = some sourceExtension then [path] else []

/-- The source files of a directory in the order of their paths. -/
def sourcesOf (w : World) (path : Text) : Except Failure (List Text) :=
  let refuse (fault : Fault) : Except Failure (List Text) :=
    .error (.io ("Failed to read directory '" ++ path ++ "': " ++ fault.message))
  match w.disk.locate w.here path with
  | .error fault => refuse fault
  | .ok place =>
    match w.disk.entry? place with
    | some .directory => .ok ((sourcesBelow w.disk w.disk.height place path).mergeSort Path.precedes)
    | some _ => refuse .notDirectory
    | none => refuse .notFound

/-- The text of a source file. -/
def readSource (path : Text) : Attempt World Text := fun w =>
  match w.readText path with
  | .ok s => (.ok s, w)
  | .error fault => (.error (.io ("Failed to read '" ++ path ++ "': " ++ fault.message)), w)

/-- Write a file. -/
def writeTarget (path content : Text) : Attempt World Unit := fun w =>
  match w.writeText path content with
  | .ok w => (.ok (), w)
  | .error fault => (.error (.io ("Failed to write '" ++ path ++ "': " ++ fault.message)), w)

/-- Translate a source file into the file beside it; the path of that file. -/
def translateFile (c : Checker) (p : Project) (r : Checker.Request) (path : Text) :
    Attempt World Text := do
  let source ← readSource path
  let translated ← c.translate r (some p.moduleName) source
  let target := Path.withExtension path targetExtension
  writeTarget target translated
  return target

/-- Translate the source files below a folder of the project, if the folder is there; the paths of the
files written, in order. -/
def translateFolder (c : Checker) (p : Project) (present : Presence) (folder : Text) :
    Attempt World (List Text) := do
  let w ← get
  let base := Path.join p.root folder
  if present w base then
    let sources ← (sourcesOf w base : Except Failure (List Text))
    sources.mapM (p.translateFile c ⟨false, folder = testsFolder⟩)
  else return []

/-- Translate the whole project; the paths of the files written, in order. -/
def translate (c : Checker) (p : Project) (present : Presence) : Attempt World (List Text) := do
  let sources ← p.translateFolder c present sourcesFolder
  let tests ← p.translateFolder c present testsFolder
  return sources ++ tests

/-- What a run of a project did. -/
structure Report where
  project : Project
  /-- The files written, in order. -/
  written : List Text
  /-- Whether a build was run. -/
  built : Bool
deriving DecidableEq

/-- Translate the project of a test file, then run the build if there is one. -/
def translateAndTest (c : Checker) (present : Presence) (file : Text) (build : Option Build) :
    Attempt World Report := do
  let project ← ofPresentTestFile present file
  let written ← project.translate c present
  match build with
  | some b => do
    b.run
    return ⟨project, written, true⟩
  | none => return ⟨project, written, false⟩

end Crosscheck.Project
