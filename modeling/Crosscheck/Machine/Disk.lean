import Crosscheck.Machine.Fault
import Crosscheck.Machine.Path
import Crosscheck.Text.Utf8
/-!
# The disk

A disk says what is at each place. A place is the list of names that lead to it from the root. Paths are
followed name by name from the place where one is, through symbolic links, forty of them at most.
-/

namespace Crosscheck

/-- The names that lead from the root to a place. -/
abbrev Place := List Text

/-- The programs that every machine has. -/
inductive Tool
  | sh | env | cat | wc | head | tail | tr | sort | sed | grep | tee | echo | printf | test | bracket
  | mkdir | touch | rm | cp | mv | ls | basename | dirname | seq | yes | no | sleep
deriving DecidableEq

/-- What can be at a place. -/
inductive Entry
  | file (content : Bytes) (executable : Bool)
  | directory
  | link (target : Text)
  | tool (t : Tool)
  /-- A file that is empty whatever is written to it. -/
  | void
deriving DecidableEq

/-- What is at each place, the root directory apart. -/
structure Disk where
  entries : List (Place × Entry)

namespace Disk

/-- What is at a place. -/
def entry? (d : Disk) (place : Place) : Option Entry :=
  if place.isEmpty then some .directory else d.entries.lookup place

/-- Put something at a place. -/
def put (d : Disk) (place : Place) (e : Entry) : Disk :=
  if d.entries.any (·.1 = place) then
    ⟨d.entries.map fun pair => if pair.1 = place then (place, e) else pair⟩
  else ⟨d.entries ++ [(place, e)]⟩

/-- Take away what is at a place. -/
def remove (d : Disk) (place : Place) : Disk := ⟨d.entries.filter fun pair => pair.1 ≠ place⟩

/-- Put a directory at the place and at every place on the way to it where there is nothing. -/
def makeDirectories (d : Disk) (place : Place) : Disk :=
  (List.range place.length).foldl (fun d n =>
    let p := place.take (n + 1)
    match d.entry? p with
    | some _ => d
    | none => d.put p .directory) d

/-- The names in a directory with what is there, in the order in which they were put. -/
def children (d : Disk) (place : Place) : List (Text × Entry) :=
  d.entries.filterMap fun (p, e) =>
    match p.getLast? with
    | some name => if p.dropLast = place then some (name, e) else none
    | none => none

/-- The greatest number of names that lead to an entry. -/
def height (d : Disk) : Nat := d.entries.foldl (fun n pair => max n pair.1.length) 0

/-- How many links are followed on the way. -/
def maxLinks : Nat := 40

/-- Where a path of names leads to from `place`. The last name may stand for nothing yet. -/
def walk (d : Disk) (links : Nat) (place : Place) : List Text → Except Fault Place
  | [] => .ok place
  | name :: rest =>
    match d.entry? place with
    | some .directory =>
      if name.isEmpty || name = ['.'] then d.walk links place rest
      else if name = ['.', '.'] then d.walk links place.dropLast rest
      else if 255 < (Utf8.encode name).length then .error .nameTooLong
      else match d.entry? (place ++ [name]) with
        | none => if rest.all (·.isEmpty) then .ok (place ++ [name]) else .error .notFound
        | some (.link target) =>
          match links with
          | 0 => .error .tooManyLinks
          | links + 1 =>
            let start := if target.head? = some '/' then [] else place
            d.walk links start (Text.splitWhen (· = '/') target ++ rest)
        | some _ => d.walk links (place ++ [name]) rest
    | _ => .error .notDirectory
termination_by names => (links, names.length)

/-- Where a path leads to. -/
def locate (d : Disk) (here : Place) (path : Text) : Except Fault Place :=
  if path.isEmpty then .error .notFound
  else if path.contains '\x00' then .error .badName
  else d.walk maxLinks (if path.head? = some '/' then [] else here) (Text.splitWhen (· = '/') path)

/-- What a path leads to. -/
def entryAt (d : Disk) (here : Place) (path : Text) : Except Fault Entry :=
  match d.locate here path with
  | .error fault => .error fault
  | .ok place =>
    match d.entry? place with
    | some e => .ok e
    | none => .error .notFound

/-- Whether a path leads to anything. -/
def holds (d : Disk) (here : Place) (path : Text) : Bool :=
  match d.entryAt here path with
  | .ok _ => true
  | .error _ => false

/-- The content of the file that a path leads to. -/
def read (d : Disk) (here : Place) (path : Text) : Except Fault Bytes :=
  match d.entryAt here path with
  | .error fault => .error fault
  | .ok (.file content _) => .ok content
  | .ok (.tool _) => .ok []
  | .ok .void => .ok []
  | .ok _ => .error .isDirectory

/-- The text of the file that a path leads to. -/
def readText (d : Disk) (here : Place) (path : Text) : Except Fault Text :=
  match d.read here path with
  | .error fault => .error fault
  | .ok content =>
    match Utf8.decode? content with
    | some s => .ok s
    | none => .error .notText

/-- Whether a place can hold a new entry: it has a name, and the place around it is a directory. -/
def isOpen (d : Disk) (place : Place) : Bool :=
  !place.isEmpty && d.entry? place.dropLast == some .directory

/-- Write a file, over the old one if there is one, which stays executable if it was. -/
def write (d : Disk) (here : Place) (path : Text) (content : Bytes) : Except Fault Disk :=
  match d.locate here path with
  | .error fault => .error fault
  | .ok place =>
    match d.entry? place with
    | some (.file _ executable) => .ok (d.put place (.file content executable))
    | some .directory => .error .isDirectory
    | some .void => .ok d
    | some _ => .error .permissionDenied
    | none =>
      if path.getLast? = some '/' then .error .isDirectory
      else if d.isOpen place then .ok (d.put place (.file content false))
      else .error .notFound

/-- The names in the directory that a path leads to. -/
def list (d : Disk) (here : Place) (path : Text) : Except Fault (List (Text × Entry)) :=
  match d.locate here path with
  | .error fault => .error fault
  | .ok place =>
    match d.entry? place with
    | some .directory => .ok (d.children place)
    | some _ => .error .notDirectory
    | none => .error .notFound

/-- A name made of `lead`, a number and `tail` that is not in the directory yet. Of as many numbers as
there are entries and one more, one is free. -/
def freshName (d : Disk) (place : Place) (lead tail : Text) : Text :=
  let name (n : Nat) : Text := lead ++ Text.ofNat n ++ tail
  match (List.range (d.entries.length + 1)).find? fun n => (d.entry? (place ++ [name n])).isNone with
  | some n => name n
  | none => name (d.entries.length + 1)

end Disk

end Crosscheck
