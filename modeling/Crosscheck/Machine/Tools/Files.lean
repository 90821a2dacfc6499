import Crosscheck.Machine.Tools.Basic
/-!
# Tools for files

Tools that make, copy, move, list and remove files and directories, and that take paths apart.
-/

namespace Crosscheck.Tool

/-- Carry out a step for each file; faults are complained about and the others go on. -/
def forFiles (l : Launch) (tool : Text) (step : Disk → Text → Except Fault Disk) (files : List Text) :
    Outcome :=
  let (disk, complaints) := files.foldl (fun (d, complaints) file =>
    match step d file with
    | .ok d => (d, complaints)
    | .error fault => (d, complaints ++ complaint tool file fault)) (l.disk, [])
  ⟨.exited (if complaints.isEmpty then 0 else 1), [], complaints, disk⟩

/-- The place of a path without going through a link that it names itself. -/
def placeOf (d : Disk) (here : Place) (path : Text) : Except Fault Place :=
  match Path.fileName? path with
  | none => d.locate here path
  | some name =>
    let parent := (Path.parent? path).getD []
    (d.locate here (if parent.isEmpty then ['.'] else parent)).map (· ++ [name])

/-- Make a directory, with those around it if `all`. -/
def makeDirectory (here : Place) (all : Bool) (d : Disk) (path : Text) : Except Fault Disk :=
  match placeOf d here path with
  | .ok place =>
    match d.entry? place with
    | some .directory => if all then .ok d else .error .exists
    | some _ => .error .exists
    | none => .ok (d.put place .directory)
  | .error fault =>
    if all then
      .ok (d.makeDirectories ((if path.head? = some '/' then [] else here) ++
        (Text.splitWhen (· = '/') path).filter fun s => !s.isEmpty && s ≠ ['.']))
    else .error fault

/-- Make a file unless it is there. -/
def touchFile (here : Place) (d : Disk) (path : Text) : Except Fault Disk :=
  if d.holds here path then .ok d else d.write here path []

/-- Remove a file, or a directory with everything in it if `all`. -/
def removePath (here : Place) (force all : Bool) (d : Disk) (path : Text) : Except Fault Disk :=
  match placeOf d here path with
  | .error fault => if force then .ok d else .error fault
  | .ok place =>
    match d.entry? place with
    | none => if force then .ok d else .error .notFound
    | some .directory =>
      if all then .ok ⟨d.entries.filter fun pair => !place.isPrefixOf pair.1⟩ else .error .isDirectory
    | some _ => .ok (d.remove place)

/-- Where a file goes when it is sent to a path: into it if it is a directory. -/
def destination (d : Disk) (here : Place) (source target : Text) : Text :=
  match d.entryAt here target with
  | .ok .directory => Path.join target ((Path.fileName? source).getD source)
  | _ => target

/-- Copy a file, with its mode. -/
def copyFile (here : Place) (target : Text) (d : Disk) (source : Text) : Except Fault Disk := do
  let e ← d.entryAt here source
  let target := destination d here source target
  match e with
  | .file content executable =>
    let d ← d.write here target content
    let place ← d.locate here target
    return d.put place (.file content executable)
  | .directory => throw .isDirectory
  | _ => d.write here target []

/-- Move a file or a directory. -/
def movePath (here : Place) (target : Text) (d : Disk) (source : Text) : Except Fault Disk := do
  let place ← placeOf d here source
  let goal ← placeOf d here (destination d here source target)
  if (d.entry? place).isNone then throw .notFound
  else if d.entry? goal.dropLast ≠ some .directory then throw .notFound
  else
    let cleared := d.entries.filter fun pair => pair.1 ≠ goal
    return ⟨cleared.map fun pair =>
      if place.isPrefixOf pair.1 then (goal ++ pair.1.drop place.length, pair.2) else pair⟩

/-- Send files to the path that is named last. -/
def send (l : Launch) (tool : Text) (step : Text → Disk → Text → Except Fault Disk)
    (arguments : List Text) : Outcome :=
  let (_, paths) := options arguments
  match paths.getLast? with
  | some target =>
    if 1 < paths.length then forFiles l tool (step target) paths.dropLast
    else done l 1 [] (Utf8.encode (tool ++ ": missing destination file operand\n"))
  | none => done l 1 [] (Utf8.encode (tool ++ ": missing file operand\n"))

/-- The names in a directory that do not start with a dot, in order. -/
def namesIn (d : Disk) (place : Place) : List Text :=
  (((d.children place).map (·.1)).filter fun name => name.head? ≠ some '.').mergeSort Text.precedes

/-- Run `ls`. -/
def listFiles (l : Launch) (arguments : List Text) : Outcome :=
  let (_, paths) := options arguments
  let paths := if paths.isEmpty then [['.']] else paths
  let lines (path : Text) : List Text :=
    match l.disk.locate l.here path with
    | .error _ => []
    | .ok place =>
      match l.disk.entry? place with
      | some .directory => namesIn l.disk place
      | some _ => [path]
      | none => []
  let missing := paths.filter fun path => !l.disk.holds l.here path
  done l (if missing.isEmpty then 0 else 2)
    (Utf8.encode (paths.flatMap fun path => (lines path).flatMap fun name => name ++ "\n"))
    (Utf8.encode (missing.flatMap fun path =>
      "ls: cannot access '" ++ path ++ "': No such file or directory\n"))

/-- A path without slashes at its end. -/
def withoutSlashes (path : Text) : Text := (path.reverse.dropWhile (· = '/')).reverse

/-- The last name of a path, without an ending if it has it. -/
def baseName (path ending : Text) : Text :=
  let name := ((withoutSlashes path).reverse.takeWhile (· ≠ '/')).reverse
  if name.isEmpty then (if path.isEmpty then [] else ['/'])
  else if ending.isSuffixOf name && ending ≠ name then name.take (name.length - ending.length)
  else name

/-- What stands before the last name of a path. -/
def directoryName (path : Text) : Text :=
  let trimmed := withoutSlashes path
  if trimmed.isEmpty then (if path.isEmpty then ['.'] else ['/'])
  else if !trimmed.contains '/' then ['.']
  else
    let before := withoutSlashes (trimmed.reverse.dropWhile (· ≠ '/')).reverse
    if before.isEmpty then ['/'] else before

end Crosscheck.Tool
