import Crosscheck.Machine.Tools.Files
import Crosscheck.Machine.Tools.Filters
import Crosscheck.Machine.Tools.Printing
import Crosscheck.Machine.Tools.Testing
/-!
# Tools

The small programs that scripts call on: writing and reading text, counting, cutting and testing. Each is
a function of its arguments and of what it is started with.
-/

namespace Crosscheck.Tool

/-- A line of output. -/
def line (s : Text) : Bytes := Utf8.encode (s ++ "\n")

/-- Run a tool that starts no other program. -/
def run (t : Tool) (arguments : List Text) (l : Launch) : Outcome :=
  let has (c : Char) : Bool := (letters (options arguments).1).contains c
  let paths := (options arguments).2
  match t with
  | .cat =>
    let (found, complaints) := contents l "cat" paths
    done l (if complaints.isEmpty then 0 else 1) (found.flatMap (·.2)) complaints
  | .wc =>
    let (found, complaints) := contents l "wc" paths
    let counted := letters (options arguments).1
    let counted := if counted.isEmpty then "lwc".toList else counted
    done l (if complaints.isEmpty then 0 else 1)
      (Utf8.encode (found.flatMap fun (name, content) => countLine counted name content)) complaints
  | .head | .tail =>
    let (os, files) := countOptions arguments
    let (found, complaints) := contents l (if t = .head then "head" else "tail") files
    done l (if complaints.isEmpty then 0 else 1)
      (found.flatMap fun (_, content) => cut (t = .head) os content) complaints
  | .tr => done l 0 (Utf8.encode (exchanged arguments (Utf8.decodeLenient l.input))) []
  | .sort =>
    let (found, complaints) := contents l "sort" paths
    let lines := found.flatMap fun (_, content) => Text.lines (Utf8.decodeLenient content)
    let sorted := lines.mergeSort Text.precedes
    done l (if complaints.isEmpty then 0 else 2)
      ((if has 'r' then sorted.reverse else sorted).flatMap line) complaints
  | .sed => edit l arguments
  | .grep => select l arguments
  | .tee => copyOut l arguments
  | .echo => done l 0 (echoed false arguments) []
  | .printf =>
    match arguments with
    | [] => done l 2 [] (line "printf: missing operand")
    | template :: rest => done l 0 (formatted (rest.length + 1) template rest) []
  | .test | .bracket =>
    let arguments := if t = .bracket then arguments.dropLast else arguments
    match holds l (arguments.length + 1) arguments with
    | some answer => done l (if answer then 0 else 1) [] []
    | none => done l 2 [] (line "test: unexpected operator")
  | .mkdir => forFiles l "mkdir" (makeDirectory l.here (has 'p')) paths
  | .touch => forFiles l "touch" (touchFile l.here) paths
  | .rm => forFiles l "rm" (removePath l.here (has 'f') (has 'r' || has 'R')) paths
  | .cp => send l "cp" (copyFile l.here) arguments
  | .mv => send l "mv" (movePath l.here) arguments
  | .ls => listFiles l arguments
  | .basename => done l 0 (line (baseName (paths.headD []) ((paths.drop 1).headD []))) []
  | .dirname => done l 0 (line (directoryName (paths.headD []))) []
  | .seq =>
    let numbers := paths.map fun s => (int? s).getD 0
    let (first, last) := match numbers with
      | [last] => (1, last)
      | first :: last :: _ => (first, last)
      | [] => (1, 0)
    done l 0 ((List.range (last - first + 1).toNat).flatMap fun n : Nat =>
      line (Text.ofInt (first + (n : Int)))) []
  | .no => done l 1 [] []
  | .yes | .sleep | .sh | .env => done l 0 [] []

/-- The name of a tool as a command. -/
def name : Tool → Text
  | .sh => "sh"
  | .env => "env"
  | .cat => "cat"
  | .wc => "wc"
  | .head => "head"
  | .tail => "tail"
  | .tr => "tr"
  | .sort => "sort"
  | .sed => "sed"
  | .grep => "grep"
  | .tee => "tee"
  | .echo => "echo"
  | .printf => "printf"
  | .test => "test"
  | .bracket => "["
  | .mkdir => "mkdir"
  | .touch => "touch"
  | .rm => "rm"
  | .cp => "cp"
  | .mv => "mv"
  | .ls => "ls"
  | .basename => "basename"
  | .dirname => "dirname"
  | .seq => "seq"
  | .yes => "true"
  | .no => "false"
  | .sleep => "sleep"

/-- Every tool. -/
def all : List Tool :=
  [.sh, .env, .cat, .wc, .head, .tail, .tr, .sort, .sed, .grep, .tee, .echo, .printf, .test, .bracket,
    .mkdir, .touch, .rm, .cp, .mv, .ls, .basename, .dirname, .seq, .yes, .no, .sleep]

end Crosscheck.Tool
