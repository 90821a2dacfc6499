import Crosscheck.World
/-!
# Projects

A project has its sources under `Sources` and the tests of a module under `Tests`, in a folder named for the
module. One test file is enough to tell where the project is and which module it builds.
-/

namespace Crosscheck

/-- Where a project is and which module it builds. -/
structure Project where
  root : Text
  moduleName : Text
deriving DecidableEq

namespace Project

def sourcesFolder : Text := "Sources"

def testsFolder : Text := "Tests"

/-- The module whose tests a folder of this name holds. -/
def moduleOf? (folder : Text) : Option Text :=
  let name := folder.take (folder.length - testsFolder.length)
  if testsFolder.isSuffixOf folder && !name.isEmpty then some name else none

/-- What is wrong with the place of a test file. -/
def misplaced (file what : Text) : Failure := .layout ('\'' :: file ++ "' " ++ what)

/-- The project of a test file, told from its path alone. -/
def ofTestFile (file : Text) : Except Failure Project :=
  match Path.parent? file with
  | none => .error (misplaced file "has no parent folder")
  | some folder =>
    match moduleOf? ((Path.fileName? folder).getD []) with
    | none => .error (misplaced file ("must be inside a folder named <Module>" ++ testsFolder))
    | some name =>
      match (Path.parent? folder).bind Path.parent? with
      | none => .error (misplaced file
          ("is not inside " ++ testsFolder ++ "/<Module>" ++ testsFolder))
      | some root => .ok ⟨root, name⟩

/-- Which paths lead to something. -/
abbrev Presence := World → Text → Bool

/-- The paths that lead to something on the disk. -/
def onDisk : Presence := fun w path => w.disk.holds w.here path

/-- The paths that are listed, in whatever spelling. -/
def among (paths : List Text) : Presence := fun _ path => paths.any (Path.same path)

/-- The project of a test file that has to be there. -/
def ofPresentTestFile (present : Presence) (file : Text) : Attempt World Project := fun w =>
  if present w file then (ofTestFile file, w)
  else (.error (.layout ("test file '" ++ file ++ "' does not exist")), w)

end Project

end Crosscheck
