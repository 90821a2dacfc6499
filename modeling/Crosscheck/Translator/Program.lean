import Crosscheck.Text.Blank
import Crosscheck.Translator.Basic
/-!
# Translators that are programs

The program gets some arguments of its own before the others and prints its answer as JSON. A status other
than success is a failure, whatever was printed; so is output that is not JSON.
-/

namespace Crosscheck.Translator

/-- A program to be run as a translator. -/
structure Program where
  path : Text
  arguments : List Text
deriving DecidableEq

namespace Program

/-- The variable that names the program. -/
def programVariable : Text := "SKIFF_TRANSLATOR"

/-- The variable that lists its arguments. -/
def argumentsVariable : Text := "SKIFF_TRANSLATOR_ARGS"

/-- A program whose name is not blank. -/
def make (path : Text) (arguments : List Text) : Except Failure Program :=
  if Text.isBlankText path then .error (.config "translator program cannot be empty")
  else .ok ⟨path, arguments⟩

/-- The program that the environment names. -/
def ofEnvironment (lookup : Text → Option Text) : Except Failure Program :=
  match lookup programVariable with
  | none => .error (.config (programVariable ++ " environment variable not set"))
  | some path => make path (((lookup argumentsVariable).map Text.words).getD [])

/-- A status in words. -/
def statusText : ExitStatus → Text
  | .exited code => "exit code " ++ Text.ofNat code
  | .signaled _ => "terminated by signal"

/-- What a finished run says: its answer, nothing, or a failure. -/
def interpret (status : ExitStatus) (output complaints : Bytes) : Except Failure (Option Json) :=
  let complaint := Text.trim (Utf8.decodeLenient complaints)
  if status.success then
    let printed := Text.trim (Utf8.decodeLenient output)
    if printed.isEmpty then .ok none
    else match Json.read? printed with
      | some answer => .ok (some answer)
      | none => .error (.translator (if complaint.isEmpty then
          "Unreadable translator output: not JSON" else complaint))
  else .error (.translator (if complaint.isEmpty then statusText status
    else complaint ++ " (" ++ statusText status ++ ")"))

/-- The program as a translator. -/
def translator (p : Program) : Translator where
  name := p.path
  compile := fun arguments w =>
    match Shell.execute (w.launch []) p.path (p.arguments ++ arguments) with
    | .error fault =>
      (.error (.translator ("Failed to run '" ++ p.path ++ "': " ++ fault.message)), w)
    | .ok o => (interpret o.status o.output o.complaints, { w with disk := o.disk })

end Program

end Crosscheck.Translator
