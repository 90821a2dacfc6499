import Crosscheck.Checker.Basic
import Crosscheck.CommandLine.Arguments
import Crosscheck.CommandLine.Range
import Crosscheck.Project.Build
/-!
# Invocations

What the program is asked to do: translate a file, translate an inline snippet, or run a project. A
configuration file and the rehearsed translator can be chosen before or after the name of the command.
-/

namespace Crosscheck.CommandLine

/-- What to do. -/
inductive Command
  /-- Print the translation of a whole file. -/
  | translate (file : Text) (moduleName : Option Text) (request : Checker.Request)
  /-- Print the translation of the snippet that follows a line, and its value if that is asked for. -/
  | inline (file : Text) (line : Nat) (sentinel range : Option Text) (request : Checker.Request)
    (evaluate : Bool)
  /-- Translate a project and build it, unless the build is skipped. -/
  | project (file : Text) (profile : Profile) (skipBuild : Bool)
deriving DecidableEq

/-- What to do, and with what. -/
structure Invocation where
  /-- The configuration file. -/
  config : Option Text
  /-- Use the translator that repeats its source. -/
  rehearse : Bool
  command : Command
deriving DecidableEq

/-- A flag or option with a long name alone. -/
def long (name : String) : Names := ⟨name, none⟩

/-- The flags of every level. -/
def commonFlags : List Names := [⟨"mock", some 'm'⟩]

/-- The options of every level. -/
def commonOptions : List Names := [⟨"config", some 'c'⟩]

/-- The level above the commands. -/
def top : Level :=
  ⟨commonFlags, commonOptions, [], ["translate", "inline", "project", "help"], true⟩

/-- Whether a text can be a line number. -/
def isNumber (s : Text) : Bool :=
  match readNumber s with
  | .ok _ => true
  | .error _ => false

/-- The level of a command. -/
def levelOf? (command : Text) : Option Level :=
  let anything (_ : Text) : Bool := true
  if command = "translate".toList then
    some ⟨commonFlags ++ [long "autoport", long "test-case"], commonOptions ++ [long "module"],
      [anything], [], false⟩
  else if command = "inline".toList then
    some ⟨commonFlags ++ [long "autoport", long "evaluate"],
      commonOptions ++ [long "sentinel", long "preamble"], [anything, isNumber], [], false⟩
  else if command = "project".toList then
    some ⟨commonFlags ++ [long "release", long "skip-build"], commonOptions, [anything], [], false⟩
  else none

/-- The command that a level was given for. -/
def commandOf? (command : Text) (g : Given) : Option Command :=
  match g.operands with
  | [file] =>
    if command = "translate".toList then
      some (.translate file (g.option? "module") ⟨g.flag "autoport", g.flag "test-case"⟩)
    else if command = "project".toList then
      some (.project file (if g.flag "release" then .release else .debug) (g.flag "skip-build"))
    else none
  | [file, line] =>
    match readNumber line with
    | .ok line =>
      if command = "inline".toList then
        some (.inline file line (g.option? "sentinel") (g.option? "preamble")
          ⟨g.flag "autoport", false⟩ (g.flag "evaluate"))
      else none
    | .error _ => none
  | _ => none

/-- What the arguments come to. -/
inductive Reading
  | run (i : Invocation)
  /-- Show how a command is used, or the program if none is named. -/
  | help (command : Option Text)
  | version
  | misuse
deriving DecidableEq

/-- What asking for help comes to, given what it is asked about. -/
def readHelp : List Text → Reading
  | [] => .help none
  | [command] => if top.commands.contains command then .help (some command) else .misuse
  | _ => .misuse

/-- Arguments that were not gone through to the end. -/
def Stop.reading (command : Option Text) : Stop → Reading
  | .misuse => .misuse
  | .help => .help command
  | .version => .version

/-- Read a command with its arguments, after what was found above it. What is given for the command itself
counts for more. -/
def readCommand (above : Given) (command : Text) (arguments : List Text) : Reading :=
  if command = "help".toList then readHelp arguments
  else match levelOf? command with
    | none => .misuse
    | some level =>
      match level.read arguments with
      | .error stop => stop.reading (some command)
      | .ok (given, _) =>
        match commandOf? command given with
        | none => .misuse
        | some c => .run {
            config := (given.option? "config").or (above.option? "config")
            rehearse := given.flag "mock" || above.flag "mock"
            command := c }

/-- Read the arguments of the program. -/
def read (arguments : List Text) : Reading :=
  match top.read arguments with
  | .error stop => stop.reading none
  | .ok (_, []) => .misuse
  | .ok (above, command :: rest) => readCommand above command rest

end Crosscheck.CommandLine
