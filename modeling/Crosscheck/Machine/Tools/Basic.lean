import Crosscheck.Machine.Process
import Crosscheck.Text.WordChar
/-!
# What tools have in common

How a tool ends, and the numbers and options that it is called with.
-/

namespace Crosscheck.Tool

/-- An outcome that leaves the disk as it was. -/
def done (l : Launch) (code : Nat) (output complaints : Bytes) : Outcome :=
  ⟨.exited code, output, complaints, l.disk⟩

/-- A decimal number with an optional sign. -/
def int? (s : Text) : Option Int :=
  let (negative, digits) := match s with
    | '-' :: ds => (true, ds)
    | '+' :: ds => (false, ds)
    | ds => (false, ds)
  if digits.isEmpty || !digits.all Text.isAsciiDigit then none
  else
    let n : Int := Text.natOfDigits digits
    some (if negative then -n else n)

/-- The arguments that are options, and those after them. Two hyphens end the options. -/
def options : List Text → List Text × List Text
  | ['-', '-'] :: rest => ([], rest)
  | ('-' :: c :: cs) :: rest =>
    let (found, others) := options rest
    (('-' :: c :: cs) :: found, others)
  | rest => ([], rest)

/-- The letters of options. -/
def letters (options : List Text) : Text := options.flatMap fun o => o.drop 1

/-- A complaint of a tool about a file. -/
def complaint (tool file : Text) (fault : Fault) : Bytes :=
  Utf8.encode (tool ++ ": " ++ file ++ ": " ++ fault.parts.2.2 ++ "\n")

/-- The content of each file, or of the input if there is none; a complaint for each file that cannot be
read. -/
def contents (l : Launch) (tool : Text) (files : List Text) : List (Text × Bytes) × Bytes :=
  if files.isEmpty then ([([], l.input)], [])
  else files.foldl (fun (found, complaints) file =>
    if file = ['-'] then (found ++ [([], l.input)], complaints)
    else match l.disk.read l.here file with
      | .ok content => (found ++ [(file, content)], complaints)
      | .error fault => (found, complaints ++ complaint tool file fault)) ([], [])

end Crosscheck.Tool
