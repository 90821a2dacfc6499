import Crosscheck.Machine.Shell.Command
import Crosscheck.Machine.Shell.Glob
import Crosscheck.Machine.Tools
/-!
# The state of a shell

What a script can read and change while it runs: bindings, arguments, the place where it is, where its
channels lead, and what it has printed so far.
-/

namespace Crosscheck.Shell

/-- Where the bytes written to a channel go. -/
inductive Sink
  | printed
  | complaints
  | file (place : Place)
  | closed
deriving DecidableEq

/-- What a command breaks off. -/
inductive Break
  /-- The script, which ends like this. -/
  | script (s : ExitStatus)
  /-- The body of a named command. -/
  | body
  /-- The innermost loop, or just the round that it is in. -/
  | loop (round : Bool)
deriving DecidableEq

/-- The state of a running script. -/
structure State where
  disk : Disk
  here : Place
  bindings : List (Text × Text)
  exported : List Text
  /-- The name under which the script runs. -/
  zero : Text
  arguments : List Text
  status : Nat
  input : Bytes
  channels : List (Nat × Sink)
  printed : Bytes
  complaints : Bytes
  /-- The commands that have been given names. -/
  functions : List (Text × Command)
  /-- Whether a command that fails ends the script. -/
  strict : Bool
  /-- Whether a failure is being looked for, so that it does not end the script. -/
  tested : Bool
  /-- What is being broken off. -/
  broken : Option Break

namespace State

/-- A shell about to run a script. -/
def begin (l : Launch) (zero : Text) (arguments : List Text) : State where
  disk := l.disk
  here := l.here
  bindings := l.environment
  exported := l.environment.map (·.1)
  zero := zero
  arguments := arguments
  status := 0
  input := l.input
  channels := []
  printed := []
  complaints := []
  functions := []
  strict := false
  tested := false
  broken := none

/-- How the script has ended, if no command follows. -/
def ending (st : State) : ExitStatus :=
  match st.broken with
  | some (.script s) => s
  | _ => .exited st.status

/-- What a script leaves behind. -/
def outcome (st : State) : Outcome := ⟨st.ending, st.printed, st.complaints, st.disk⟩

/-- End the script. -/
def finish (st : State) (s : ExitStatus) : State := { st with broken := some (.script s) }

/-- Take over the end of a shell within this one. A signal is meant for both. -/
def joinEnd (st : State) (s : ExitStatus) : State :=
  match s with
  | .exited code => { st with status := code }
  | .signaled n => { st with status := s.number, broken := some (.script (.signaled n)) }

/-- End the script if the last command failed and that must not be. -/
def enforce (st : State) : State :=
  if st.strict && !st.tested && st.status ≠ 0 && st.broken.isNone then st.finish (.exited st.status)
  else st

/-- Where a channel leads. -/
def sink (st : State) (channel : Nat) : Sink :=
  (st.channels.lookup channel).getD
    (if channel = 1 then .printed else if channel = 2 then .complaints else .closed)

/-- Write bytes to a channel. -/
def write (st : State) (channel : Nat) (bytes : Bytes) : State :=
  match st.sink channel with
  | .printed => { st with printed := st.printed ++ bytes }
  | .complaints => { st with complaints := st.complaints ++ bytes }
  | .closed => st
  | .file place =>
    match st.disk.entry? place with
    | some (.file content executable) =>
      { st with disk := st.disk.put place (.file (content ++ bytes) executable) }
    | _ => st

/-- Write a complaint about a line of the script. -/
def complain (st : State) (line : Nat) (what : Text) : State :=
  st.write 2 (Utf8.encode (st.zero ++ ": " ++ Text.ofNat line ++ ": " ++ what ++ "\n"))

/-- The number of the shell's process. -/
def processNumber : Nat := 4242

/-- The value of a variable. -/
def valueOf? (st : State) (name : Text) : Option Text := st.bindings.lookup name

/-- Give a variable a value. -/
def assign (st : State) (name value : Text) : State :=
  { st with bindings := (name, value) :: st.bindings.filter (·.1 ≠ name) }

/-- The value of a parameter by its plain name. -/
def plainParameter? (st : State) (name : Text) : Option Text :=
  if name = ['?'] then some (Text.ofNat st.status)
  else if name = ['#'] then some (Text.ofNat st.arguments.length)
  else if name = ['$'] then some (Text.ofNat processNumber)
  else if name = ['@'] || name = ['*'] then some (Text.join [' '] st.arguments)
  else if name = ['0'] then some st.zero
  else if name.all Text.isAsciiDigit then
    match Text.natOfDigits name with
    | 0 => some st.zero
    | n + 1 => st.arguments[n]?
  else st.valueOf? name

/-- The operators between the name of a parameter and a word, a longer one before those that it starts
with. -/
def operators : List Text := [":-", ":=", ":+", ":?", "%%", "##", "-", "=", "+", "?", "%", "#"]

/-- The name of a parameter as written in braces, the operator after it and the text after that. -/
def splitParameter (written : Text) : Text × Text × Text :=
  let special := written.take 1
  let name :=
    if special.any fun c => "?#@*$!-".toList.contains c then special
    else written.takeWhile Text.isAsciiWord
  let rest := written.drop name.length
  match operators.find? fun o => o.isPrefixOf rest with
  | some o => (name, o, rest.drop o.length)
  | none => (name, [], rest)

/-- The number that a variable stands for in an expression. -/
def number (st : State) (name : Text) : Int := (Tool.int? ((st.valueOf? name).getD [])).getD 0

/-- What a program that the script starts is started with. -/
def launch (st : State) (extra : List (Text × Text)) : Launch where
  disk := st.disk
  here := st.here
  environment := extra ++ st.bindings.filter fun v =>
    st.exported.contains v.1 && !extra.any (·.1 = v.1)
  input := st.input

/-- Take over what a program left behind. -/
def absorb (st : State) (o : Outcome) : State :=
  let st := { st with disk := o.disk, status := o.status.number }
  (st.write 1 o.output).write 2 o.complaints

/-- The paths that a pattern stands for; only its last name may have wildcards. -/
def expandPattern (st : State) (pattern : Text) : List Text :=
  let name := (pattern.reverse.takeWhile (· ≠ '/')).reverse
  let front := pattern.take (pattern.length - name.length)
  let directory := if front.isEmpty then ['.'] else front
  match st.disk.locate st.here directory with
  | .ok place => ((Tool.namesIn st.disk place).filter (Glob.covers name)).map (front ++ ·)
  | .error _ => []

end State

/-- A part of an expanded word. -/
inductive Part
  /-- Taken as it is; it makes a field even if it is empty when it was quoted. -/
  | solid (s : Text) (quoted : Bool)
  /-- Cut at blanks. -/
  | soft (s : Text)
  /-- A field for each. -/
  | many (fields : List Text)

/-- Add a part to fields; the last field is still open, none if nothing of it is there yet. -/
def addPart (acc : List Text × Option Text) : Part → List Text × Option Text
  | .solid s quoted =>
    match acc.2 with
    | some current => (acc.1, some (current ++ s))
    | none => (acc.1, if quoted || !s.isEmpty then some s else none)
  | .soft s =>
    s.foldl (fun (done, current) c =>
      if c == ' ' || c == '\t' || c == '\n' then
        match current with
        | some field => (done ++ [field], none)
        | none => (done, none)
      else (done, some (current.getD [] ++ [c]))) acc
  | .many fields =>
    match fields with
    | [] => acc
    | first :: rest =>
      rest.foldl (fun (done, current) f => (done ++ [current.getD []], some f))
        (acc.1, some (acc.2.getD [] ++ first))

/-- The fields that the parts of a word make. -/
def fieldsOf (parts : List Part) : List Text :=
  let (done, current) := parts.foldl addPart ([], none)
  match current with
  | some field => done ++ [field]
  | none => done

/-- The text that the parts of a word make when it is not cut. -/
def joined (parts : List Part) : Text :=
  parts.flatMap fun
    | .solid s _ => s
    | .soft s => s
    | .many fields => Text.join [' '] fields

/-- The pattern that the parts of a word make; what was quoted has no wildcards. -/
def patternOf (parts : List Part) : Text :=
  parts.flatMap fun
    | .solid s quoted => if quoted then Glob.escape s else s
    | .soft s => s
    | .many fields => Glob.escape (Text.join [' '] fields)

/-- The number of a signal by its name or number. -/
def signalNumber? (s : Text) : Option Nat :=
  let name := (Text.after? "SIG" s).getD s
  let table : List (String × Nat) := [("HUP", 1), ("INT", 2), ("QUIT", 3), ("ILL", 4), ("ABRT", 6),
    ("FPE", 8), ("KILL", 9), ("USR1", 10), ("SEGV", 11), ("USR2", 12), ("PIPE", 13), ("ALRM", 14),
    ("TERM", 15)]
  match table.find? fun entry => entry.1.toList = name with
  | some entry => some entry.2
  | none => if !s.isEmpty && s.all Text.isAsciiDigit then some (Text.natOfDigits s) else none

/-- The signal that the arguments of `kill` ask for, and the processes it is for. -/
def killArguments : List Text → Option (Nat × List Text)
  | ['-', 's'] :: signal :: rest => (signalNumber? signal).map fun n => (n, rest)
  | ('-' :: signal) :: rest => (signalNumber? signal).map fun n => (n, rest)
  | rest => some (15, rest)

/-- Carry out a command of the shell itself; none if the name is of no such command. -/
def builtin? (st : State) (line : Nat) (name : Text) (arguments : List Text) : Option State :=
  let ok (st : State) : Option State := some { st with status := 0 }
  let tool (t : Tool) : Option State := some (st.absorb (t.run arguments (st.launch [])))
  let leave (code : Nat) : Option State :=
    if name = "exit".toList then some (st.finish (.exited (code % 256)))
    else some { st with status := code % 256, broken := some .body }
  if name = ":".toList || name = "true".toList || name = "wait".toList || name = "umask".toList then ok st
  else if name = "false".toList then some { st with status := 1 }
  else if name = "echo".toList then ok (st.write 1 (Tool.echoed true arguments))
  else if name = "printf".toList then tool .printf
  else if name = "test".toList then tool .test
  else if name = "[".toList then tool .bracket
  else if name = "exit".toList || name = "return".toList then
    match arguments with
    | [] => leave st.status
    | code :: _ =>
      if !code.isEmpty && code.all Text.isAsciiDigit then leave (Text.natOfDigits code)
      else some ((st.complain line (name ++ ": Illegal number: " ++ code)).finish (.exited 2))
  else if name = "break".toList || name = "continue".toList then
    some { st with status := 0, broken := some (.loop (name = "continue".toList)) }
  else if name = "kill".toList then
    match killArguments arguments with
    | some (signal, targets) =>
      if targets.contains (Text.ofNat State.processNumber) && signal ≠ 0 then
        some (st.finish (.signaled signal))
      else ok st
    | none => some { st.complain line "kill: Illegal option" with status := 2 }
  else if name = "shift".toList then
    let n := match arguments with
      | [] => 1
      | n :: _ => Text.natOfDigits n
    ok { st with arguments := st.arguments.drop n }
  else if name = "set".toList then
    match arguments with
    | ['-', '-'] :: rest => ok { st with arguments := rest }
    | ('-' :: flags) :: rest =>
      ok { st with
        strict := st.strict || flags.contains 'e'
        arguments := if rest.isEmpty || flags = ['o'] then st.arguments else rest }
    | ('+' :: flags) :: _ => ok { st with strict := st.strict && !flags.contains 'e' }
    | [] => ok st
    | rest => ok { st with arguments := rest }
  else if name = "pwd".toList then
    ok (st.write 1 (Utf8.encode (st.here.flatMap (fun n => '/' :: n) ++ "\n")))
  else if name = "cd".toList then
    match st.disk.locate st.here (arguments.headD ((st.valueOf? "HOME").getD ['/'])) with
    | .ok place =>
      if st.disk.entry? place = some .directory then ok { st with here := place }
      else some { st.complain line ("cd: can't cd to " ++ arguments.headD []) with status := 2 }
    | .error _ => some { st.complain line ("cd: can't cd to " ++ arguments.headD []) with status := 2 }
  else if name = "export".toList then
    ok (arguments.foldl (fun st a =>
      let key := a.takeWhile (· ≠ '=')
      let st := if key.length < a.length then st.assign key (a.drop (key.length + 1)) else st
      { st with exported := key :: st.exported }) st)
  else if name = "unset".toList then
    ok { st with bindings := st.bindings.filter fun v => !arguments.contains v.1 }
  else if name = "read".toList then
    let names := arguments.filter fun a => a.head? ≠ some '-'
    let read := st.input.takeWhile (· ≠ 10)
    let found := read.length < st.input.length
    let st := { st with input := st.input.drop (read.length + 1) }
    let st := match names with
      | [] => st
      | v :: _ => st.assign v (Text.trim (Utf8.decodeLenient read))
    some { st with status := if found then 0 else 1 }
  else none

end Crosscheck.Shell
