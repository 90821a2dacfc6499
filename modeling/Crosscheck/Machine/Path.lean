import Crosscheck.Text.Basic
/-!
# Paths

A path is a text that is read as components: a slash at the start is the root, repeated slashes and dots
between slashes do not count, a dot at the very start does, and two dots are never worked out. Operations
keep the spelling of the part of the path that they keep.
-/

namespace Crosscheck.Path

/-- A component of a path. -/
inductive Component
  | root
  /-- The dot that a path starts with. -/
  | here
  | up
  | name (s : Text)
deriving DecidableEq

/-- The pieces between slashes, each with the position at which it ends. -/
def segments (p : Text) : List (Text × Nat) :=
  ((Text.splitWhen (· = '/') p).foldl
    (fun (acc : List (Text × Nat) × Nat) s => ((s, acc.2 + s.length) :: acc.1, acc.2 + s.length + 1))
    ([], 0)).1.reverse

/-- The component that a piece stands for, if it counts. -/
def Component.of? (first : Bool) (s : Text) : Option Component :=
  if s.isEmpty then none
  else if s = ['.'] then if first then some .here else none
  else if s = ['.', '.'] then some .up
  else some (.name s)

/-- The components, each with the position at which it ends. -/
def marks (p : Text) : List (Component × Nat) :=
  let body := (segments p).zipIdx.filterMap fun ((s, stop), i) =>
    (Component.of? (i = 0) s).map fun c => (c, stop)
  if p.head? = some '/' then (.root, 1) :: body else body

/-- The components. -/
def components (p : Text) : List Component := (marks p).map (·.1)

/-- Whether two paths have the same components. -/
def same (p q : Text) : Bool := components p == components q

/-- The path without its last component; the empty path and the root have none. -/
def parent? (p : Text) : Option Text :=
  match (marks p).reverse with
  | [] => none
  | (.root, _) :: _ => none
  | [_] => some []
  | _ :: (_, stop) :: _ => some (p.take stop)

/-- The last component, if it is a name. -/
def fileName? (p : Text) : Option Text :=
  match (components p).getLast? with
  | some (.name s) => some s
  | _ => none

/-- `q` seen from the directory `p`. -/
def join (p q : Text) : Text :=
  if q.head? = some '/' then q
  else if p.isEmpty || p.getLast? = some '/' then p ++ q
  else p ++ '/' :: q

/-- A file name cut at its last dot; a dot at the start cuts nothing. -/
def splitName (name : Text) : Text × Option Text :=
  let tail := (name.reverse.takeWhile (· ≠ '.')).reverse
  let stem := name.take (name.length - tail.length - 1)
  if tail.length = name.length || stem.isEmpty then (name, none) else (stem, some tail)

/-- What follows the last dot of the file name. -/
def extension? (p : Text) : Option Text := (fileName? p).bind fun name => (splitName name).2

/-- The path with another extension on its file name. -/
def withExtension (p : Text) (extension : Text) : Text :=
  match (marks p).getLast? with
  | some (.name name, stop) =>
    p.take (stop - name.length) ++ (splitName name).1 ++ '.' :: extension
  | _ => p

/-- The rank of a kind of component in the order of paths. -/
def Component.rank : Component → Nat
  | .root => 0
  | .here => 1
  | .up => 2
  | .name _ => 3

/-- The order of components: by kind, names by code point. -/
def Component.precedes : Component → Component → Bool
  | .name s, .name t => Text.precedes s t
  | c, d => c.rank ≤ d.rank

/-- The order of component lists. -/
def componentsPrecede : List Component → List Component → Bool
  | [], _ => true
  | _ :: _, [] => false
  | c :: cs, d :: ds => if c = d then componentsPrecede cs ds else c.precedes d

/-- The order of paths: component by component. -/
def precedes (p q : Text) : Bool := componentsPrecede (components p) (components q)

end Crosscheck.Path
