import Crosscheck.Machine.Shell.Arithmetic
import Crosscheck.Machine.Shell.Reader
import Crosscheck.Machine.Shell.State
/-!
# Running programs

A program is a tool, or a file whose first line names its interpreter; the shell runs scripts. A bound on
the number of steps stands for the patience of whoever waits: a program that is still running when it is
used up is killed.
-/

namespace Crosscheck.Shell

/-- A program that was killed because it ran too long. -/
def killed (l : Launch) : Outcome := ⟨.signaled 9, [], [], l.disk⟩

mutual

/-- Start a program that was found at `path`. -/
def start : Nat → Launch → Text → Bytes ⊕ Tool → List Text → Except Fault Outcome
  | 0, l, _, _, _ => .ok (killed l)
  | bound + 1, l, path, program, arguments =>
    match program with
    | .inr .sh => .ok (runShell bound l path arguments)
    | .inr .env =>
      let isAssignment (a : Text) : Bool := a.contains '='
      let assigned := arguments.takeWhile isAssignment
      let pair (a : Text) : Text × Text :=
        let name := a.takeWhile (· ≠ '=')
        (name, a.drop (name.length + 1))
      let l := { l with environment := assigned.map pair ++ l.environment }
      match arguments.dropWhile isAssignment with
      | [] => .ok (Tool.done l 0
          (Utf8.encode (l.environment.flatMap fun (k, v) => k ++ '=' :: v ++ "\n")) [])
      | name :: rest =>
        match spawn bound l name rest with
        | .ok o => .ok o
        | .error fault => .ok (Tool.done l 127 []
            (Utf8.encode ("env: '" ++ name ++ "': " ++ fault.parts.2.2 ++ "\n")))
    | .inr t => .ok (t.run arguments l)
    | .inl content =>
      match Launch.interpreter? content with
      | none => .error .badExecutable
      | some (name, argument) =>
        match l.runnable name with
        | .error fault => .error fault
        | .ok interpreter => start bound l name interpreter (argument.toList ++ path :: arguments)

/-- Start the program that a command name stands for. -/
def spawn : Nat → Launch → Text → List Text → Except Fault Outcome
  | 0, l, _, _ => .ok (killed l)
  | bound + 1, l, name, arguments =>
    match l.find name with
    | .error fault => .error fault
    | .ok (path, program) => start bound l path program arguments

/-- Run the shell, called `name`, with its arguments: a script after `-c`, or a file, or the input. -/
def runShell : Nat → Launch → Text → List Text → Outcome
  | 0, l, _, _ => killed l
  | bound + 1, l, name, arguments =>
    match arguments with
    | [] => runScript bound (State.begin { l with input := [] } name []) (Utf8.decodeLenient l.input)
    | first :: rest =>
      if first = "-c".toList then
        match rest with
        | [] => Tool.done l 2 [] (Utf8.encode (name ++ ": 0: -c requires an argument\n"))
        | script :: rest =>
          runScript bound (State.begin l (rest.headD name) (rest.drop 1)) script
      else match l.disk.read l.here first with
        | .ok content => runScript bound (State.begin l first rest) (Utf8.decodeLenient content)
        | .error fault => Tool.done l 2 [] (Utf8.encode
            (name ++ ": 0: cannot open " ++ first ++ ": " ++ fault.parts.2.2 ++ "\n"))

/-- Run a script from a state. -/
def runScript : Nat → State → Text → Outcome
  | 0, st, _ => { st.outcome with status := .signaled 9 }
  | bound + 1, st, script =>
    match read? script with
    | some c => (run bound c st).outcome
    | none => { st.complain 1 "Syntax error" with status := 2 }.outcome

/-- The parts that the pieces of a word expand to. -/
def expand : Nat → Word → State → List Part × State
  | 0, _, st => ([], st)
  | _ + 1, [], st => ([], st)
  | bound + 1, piece :: rest, st =>
    let part (s : Text) (quoted : Bool) : Part := if quoted then .solid s true else .soft s
    let (found, st) : Part × State := match piece with
      | .text s quoted => (.solid s quoted, st)
      | .parameter written quoted =>
        if quoted && written = ['@'] then (.many st.arguments, st)
        else
          let (value, st) := parameter bound written st
          (part value quoted, st)
      | .sum expression quoted =>
        let (s, st) := match quotedWord expression with
          | some w =>
            let (parts, st) := expand bound w st
            (joined parts, st)
          | none => (expression, st)
        match Arithmetic.evaluate st.number s with
        | some i => (part (Text.ofInt i) quoted, st)
        | none => (part [] quoted,
            (st.complain 1 ("arithmetic expression: expecting primary: \"" ++ s ++ "\"")).finish
              (.exited 2))
      | .output script quoted =>
        let o := runScript bound { st with printed := [], channels := [(2, st.sink 2)] } script
        let text := ((Utf8.decodeLenient o.output).reverse.dropWhile (· = '\n')).reverse
        let st := { st with disk := o.disk, complaints := o.complaints }
        (part text quoted, st.joinEnd o.status)
    let (parts, st) := expand bound rest st
    (found :: parts, st)

/-- The value of a parameter as written in braces. -/
def parameter : Nat → Text → State → Text × State
  | 0, _, st => ([], st)
  | bound + 1, written, st =>
    match written with
    | '#' :: c :: cs => (Text.ofNat ((st.plainParameter? (c :: cs)).getD []).length, st)
    | _ =>
      let (name, operator, rest) := State.splitParameter written
      let value := st.plainParameter? name
      if operator.isEmpty then (value.getD [], st)
      else
        let (parts, after) := expand bound ((wholeWord (rest.length + 1) rest).getD []) st
        let other := joined parts
        let missing := if operator.head? = some ':' then (value.getD []).isEmpty else value.isNone
        if operator.contains '%' then
          (Glob.dropBack (operator.length = 2) (patternOf parts) (value.getD []), after)
        else if operator.contains '#' then
          (Glob.dropFront (operator.length = 2) (patternOf parts) (value.getD []), after)
        else if operator.contains '+' then if missing then ([], st) else (other, after)
        else if !missing then (value.getD [], st)
        else if operator.contains '=' then (other, after.assign name other)
        else if operator.contains '?' then
          ([], (after.complain 1 (name ++ ": " ++
            (if other.isEmpty then "parameter not set".toList else other))).finish (.exited 2))
        else (other, after)

/-- The fields that words expand to. A word that is a pattern and leads to paths stands for them. -/
def expandAll : Nat → List Word → State → List Text × State
  | 0, _, st => ([], st)
  | _ + 1, [], st => ([], st)
  | bound + 1, w :: rest, st =>
    let (parts, st) := expand bound w st
    let pattern := patternOf parts
    let paths := if Glob.isWild pattern && !pattern.contains '\\' then st.expandPattern pattern else []
    let (fields, st) := expandAll bound rest st
    ((if paths.isEmpty then fieldsOf parts else paths) ++ fields, st)

/-- Whether one of the patterns matches the subject. -/
def covered : Nat → Text → List Word → State → Bool × State
  | 0, _, _, st => (false, st)
  | _ + 1, _, [], st => (false, st)
  | bound + 1, subject, w :: rest, st =>
    let (parts, st) := expand bound w st
    if Glob.covers (patternOf parts) subject then (true, st) else covered bound subject rest st

/-- Carry out assignments in order; what was assigned. -/
def assignAll : Nat → List (Text × Word) → State → List (Text × Text) × State
  | 0, _, st => ([], st)
  | _ + 1, [], st => ([], st)
  | bound + 1, (name, w) :: rest, st =>
    let (parts, st) := expand bound w st
    let (assigned, st) := assignAll bound rest st
    ((name, joined parts) :: assigned, st)

/-- Connect channels. A file that cannot be opened is complained about. -/
def redirect : Nat → List Redirection → State → State × Bool
  | 0, _, st => (st, false)
  | _ + 1, [], st => (st, true)
  | bound + 1, r :: rest, st =>
    let (parts, st) := expand bound r.target st
    let target := joined parts
    match r.direction with
    | .here => redirect bound rest { st with input := Utf8.encode target }
    | .read =>
      match st.disk.read st.here target with
      | .ok content => redirect bound rest { st with input := content }
      | .error _ => ({ st.complain 1 ("cannot open " ++ target ++ ": No such file") with status := 2 }, false)
    | .duplicate =>
      let sink := if target = ['-'] then .closed else st.sink (Text.natOfDigits target)
      redirect bound rest { st with channels := (r.channel, sink) :: st.channels }
    | .write | .append =>
      let old := match st.disk.read st.here target with
        | .ok content => if r.direction = .append then content else []
        | .error _ => []
      let opened := match st.disk.write st.here target old with
        | .ok disk => (disk.locate st.here target).map fun place => (disk, place)
        | .error fault => .error fault
      match opened with
      | .ok (disk, place) =>
        redirect bound rest
          { st with disk := disk, channels := (r.channel, .file place) :: st.channels }
      | .error _ =>
        ({ st.complain 1 ("cannot create " ++ target ++ ": Directory nonexistent") with status := 2 }, false)

/-- Run a command whose failure is looked for. -/
def runTested : Nat → Command → State → State
  | 0, _, st => st.finish (.signaled 9)
  | bound + 1, c, st => { run bound c { st with tested := true } with tested := st.tested }

/-- Run a command. -/
def run : Nat → Command → State → State
  | 0, _, st => st.finish (.signaled 9)
  | bound + 1, c, st =>
    if st.broken.isSome then st
    else match c with
    | .nothing => st
    | .sequence first second => run bound second (run bound first st)
    | .ifSucceeds first second =>
      let st := runTested bound first st
      if st.status = 0 then run bound second st else st
    | .ifFails first second =>
      let st := runTested bound first st
      if st.status = 0 then st else run bound second st
    | .negated c =>
      let st := runTested bound c st
      if st.broken.isSome then st else { st with status := if st.status = 0 then 1 else 0 }
    | .pipe first second =>
      let before := run bound first { st with printed := [], channels := [(2, st.sink 2)] }
      let after := run bound second
        { st with disk := before.disk, complaints := before.complaints, input := before.printed }
      let st := { st with
        disk := after.disk, printed := after.printed, complaints := after.complaints }
      let st := st.joinEnd after.ending
      (match before.ending with
        | .signaled n => st.finish (.signaled n)
        | .exited _ => st).enforce
    | .subshell c =>
      let inner := run bound c st
      let st := { st with
        disk := inner.disk, printed := inner.printed, complaints := inner.complaints
        input := inner.input }
      (st.joinEnd inner.ending).enforce
    | .redirected c redirections =>
      match redirect bound redirections st with
      | (inner, true) =>
        let after := run bound c inner
        { after with channels := st.channels, input := st.input }
      | (inner, false) => { inner with channels := st.channels, input := st.input }
    | .choose condition consequent alternative =>
      let st := runTested bound condition st
      if st.broken.isSome then st
      else run bound (if st.status = 0 then consequent else alternative) { st with status := 0 }
    | .select subject patterns body otherwise =>
      let (parts, st) := expand bound subject st
      let (found, st) := covered bound (joined parts) patterns st
      run bound (if found then body else otherwise) { st with status := 0 }
    | .forEach name words body =>
      let (fields, st) := match words with
        | some ws => expandAll bound ws st
        | none => (st.arguments, st)
      runEach bound name fields body { st with status := 0 }
    | .loop whileTrue condition body =>
      let st := runTested bound condition st
      if st.broken.isSome then st
      else if (st.status = 0) = whileTrue then
        let st := run bound body st
        match st.broken with
        | some (.loop round) =>
          let st := { st with broken := none }
          if round then run bound (.loop whileTrue condition body) st else st
        | _ => run bound (.loop whileTrue condition body) st
      else { st with status := 0 }
    | .define name body => { st with functions := (name, body) :: st.functions, status := 0 }
    | .simple line assignments words redirections =>
      let computes := (assignments.map (·.2) ++ words).any fun w => w.any fun
        | .output _ _ => true
        | _ => false
      let (fields, st) := expandAll bound words st
      let (assigned, st) := assignAll bound assignments st
      if st.broken.isSome then st
      else match fields with
      | [] =>
        let st := assigned.foldl (fun st (name, value) => st.assign name value) st
        let st := if computes then st else { st with status := 0 }
        let (inner, _) := redirect bound redirections st
        { inner with channels := st.channels, input := st.input }.enforce
      | name :: arguments =>
        match redirect bound redirections st with
        | (inner, false) => { inner with channels := st.channels, input := st.input }.enforce
        | (inner, true) =>
          let after := runProgram bound line assigned name arguments inner
          let input := if redirections.isEmpty then after.input else st.input
          { after with channels := st.channels, input := input }.enforce

/-- Run a program, a named command or a command of the shell itself. -/
def runProgram : Nat → Nat → List (Text × Text) → Text → List Text → State → State
  | 0, _, _, _, _, st => st.finish (.signaled 9)
  | bound + 1, line, assigned, name, arguments, st =>
    if name = "exec".toList then
      match arguments with
      | [] => st
      | program :: rest =>
        let st := runProgram bound line assigned program rest st
        st.finish st.ending
    else if name = "eval".toList then
      match read? (Text.join [' '] arguments) with
      | some c => run bound c st
      | none => { st.complain line "Syntax error" with status := 2 }
    else match st.functions.lookup name with
      | some body =>
        let inner := run bound body { st with arguments := arguments }
        let inner := { inner with arguments := st.arguments }
        if inner.broken = some .body then { inner with broken := none } else inner
      | none =>
        match builtin? st line name arguments with
        | some st => st
        | none =>
          match spawn bound (st.launch assigned) name arguments with
          | .ok o => st.absorb o
          | .error .notFound => { st.complain line (name ++ ": not found") with status := 127 }
          | .error fault => { st.complain line (name ++ ": " ++ fault.parts.2.2) with status := 126 }

/-- Run the body of a loop for each value. -/
def runEach : Nat → Text → List Text → Command → State → State
  | 0, _, _, _, st => st.finish (.signaled 9)
  | _ + 1, _, [], _, st => st
  | bound + 1, name, value :: rest, body, st =>
    let st := run bound body (st.assign name value)
    match st.broken with
    | some (.loop round) =>
      let st := { st with broken := none }
      if round then runEach bound name rest body st else st
    | some _ => st
    | none => runEach bound name rest body st

end

/-- How many steps a program may take. -/
def patience : Nat := 1000000

/-- Start the program that a command name stands for and wait for it to end. -/
def execute (l : Launch) (name : Text) (arguments : List Text) : Except Fault Outcome :=
  spawn patience l name arguments

end Crosscheck.Shell
