import Crosscheck.CommandLine.Run
import Crosscheck.Machine.Standard
/-!
# The program

The program runs in a world that starts as a picture of the directory it is started in: its files, and the
variables that matter. A file that names an interpreter in its first line counts as a program. When the run has
ended, what was printed is printed, and the files that have changed are written.
-/

namespace Crosscheck.Main

/-- The variables of the environment that a run can look at. -/
def watched : List String :=
  ["SKIFF_TRANSLATOR", "SKIFF_TRANSLATOR_ARGS", "ANDROID_HOME", "HOME", "PATH", "TMPDIR"]

/-- Bytes as a list. -/
def bytesOf (b : ByteArray) : Bytes := b.data.toList

/-- Bytes as an array. -/
def arrayOf (b : Bytes) : ByteArray := ⟨b.toArray⟩

/-- Take what is found in a directory into the picture. -/
partial def load (disk : Disk) (place : Place) (e : IO.FS.DirEntry) : IO Disk := do
  let place := place ++ [e.fileName.toList]
  match (← e.path.metadata).type with
  | .dir => do
    let mut disk := disk.makeDirectories place
    for inner in ← e.path.readDir do
      disk ← load disk place inner
    return disk
  | .file => do
    let content := bytesOf (← IO.FS.readBinFile e.path)
    return disk.put place (.file content (Launch.interpreter? content).isSome)
  | _ => return disk

/-- The world at the start. -/
def start : IO World := do
  let directory ← IO.currentDir
  let here := (Text.splitWhen (· = '/') directory.toString.toList).filter (!·.isEmpty)
  let mut disk := Disk.standard.makeDirectories here
  for e in ← directory.readDir do
    disk ← load disk here e
  let mut environment := []
  for name in watched do
    if let some value ← IO.getEnv name then
      environment := environment ++ [(name.toList, value.toList)]
  return ⟨disk, here, environment, [], []⟩

/-- Write the files that differ from those at the start. -/
def save (before after : Disk) : IO Unit :=
  for (place, e) in after.entries do
    if before.entry? place ≠ some e then
      let path := String.ofList (World.placeText place)
      match e with
      | .file content _ => IO.FS.writeBinFile path (arrayOf content)
      | .directory => IO.FS.createDirAll path
      | _ => pure ()

/-- Run the program and end with its status. -/
def run (arguments : List String) : IO UInt32 := do
  let world ← start
  let ending := CommandLine.run (arguments.map String.toList) world
  save world.disk ending.world.disk
  (← IO.getStdout).write (arrayOf ending.world.output)
  if let some complaint := ending.complaint then
    IO.eprintln ("Error: " ++ String.ofList complaint.debug)
  else if ending.status ≠ 0 then
    IO.eprintln (String.ofList CommandLine.generalHelp)
  return ending.status.toUInt32

end Crosscheck.Main

def main (arguments : List String) : IO UInt32 := Crosscheck.Main.run arguments
