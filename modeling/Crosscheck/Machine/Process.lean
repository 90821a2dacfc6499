import Crosscheck.Machine.Disk
/-!
# Processes

How a program ends, what it leaves behind, and which file a command name stands for.
-/

namespace Crosscheck

/-- How a program ended. -/
inductive ExitStatus
  | exited (code : Nat)
  | signaled (signal : Nat)
deriving DecidableEq

namespace ExitStatus

/-- Whether the program ended well. -/
def success (s : ExitStatus) : Bool := s == .exited 0

/-- The number that a shell gives for the status. -/
def number : ExitStatus → Nat
  | .exited code => code
  | .signaled signal => 128 + signal

end ExitStatus

/-- What a program leaves behind. -/
structure Outcome where
  status : ExitStatus
  output : Bytes
  complaints : Bytes
  disk : Disk

/-- What a program is started with. -/
structure Launch where
  disk : Disk
  here : Place
  environment : List (Text × Text)
  input : Bytes

namespace Launch

/-- The value of a variable. -/
def valueOf? (l : Launch) (name : Text) : Option Text := l.environment.lookup name

/-- The directories in which programs are looked for. -/
def searchPath (l : Launch) : List Text :=
  Text.splitWhen (· = ':') ((l.valueOf? "PATH").getD "/bin:/usr/bin")

/-- A file that can be started: one with its content, or a tool. -/
def runnable (l : Launch) (path : Text) : Except Fault (Bytes ⊕ Tool) :=
  match l.disk.entryAt l.here path with
  | .error fault => .error fault
  | .ok (.file content true) => .ok (.inl content)
  | .ok (.tool t) => .ok (.inr t)
  | .ok _ => .error .permissionDenied

/-- Try the directories in order. A file that must not be started is remembered, but the search goes
on. -/
def search (l : Launch) (name : Text) (denied : Bool) :
    List Text → Except Fault (Text × (Bytes ⊕ Tool))
  | [] => .error (if denied then .permissionDenied else .notFound)
  | directory :: rest =>
    let path := if directory.isEmpty then name else Path.join directory name
    match l.runnable path with
    | .ok program => .ok (path, program)
    | .error .permissionDenied => l.search name true rest
    | .error .notFound => l.search name denied rest
    | .error .notDirectory => l.search name denied rest
    | .error fault => .error fault

/-- The path and the content of the program that a command name stands for. A name with a slash is a
path. -/
def find (l : Launch) (name : Text) : Except Fault (Text × (Bytes ⊕ Tool)) :=
  if name.isEmpty then .error .notFound
  else if name.contains '/' then (l.runnable name).map fun program => (name, program)
  else l.search name false l.searchPath

/-- The interpreter that the first line of a file names, and its argument. -/
def interpreter? (content : Bytes) : Option (Text × Option Text) :=
  match Text.after? "#!" (Utf8.decodeLenient (content.takeWhile (· ≠ 10))) with
  | none => none
  | some line =>
    let gap (c : Char) : Bool := c == ' ' || c == '\t'
    let line := ((line.dropWhile gap).reverse.dropWhile gap).reverse
    let name := line.takeWhile (!gap ·)
    let argument := (line.drop name.length).dropWhile gap
    if name.isEmpty then none else some (name, if argument.isEmpty then none else some argument)

end Launch

end Crosscheck
