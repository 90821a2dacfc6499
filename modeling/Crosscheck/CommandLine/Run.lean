import Crosscheck.Checker.Inline
import Crosscheck.CommandLine.Help
import Crosscheck.CommandLine.Invocation
import Crosscheck.Project.Run
import Crosscheck.Translator.Program
import Crosscheck.Translator.Rehearsed
/-!
# Running the program

An invocation is carried out in a world: the configuration is loaded, the translator is set up, and then the
command runs. Arguments that make no sense end the program with status 2, a failure with status 1 and a
complaint that shows its parts.
-/

namespace Crosscheck.CommandLine

/-- What the program can complain about. -/
inductive Complaint
  /-- A stage failed. -/
  | failure (f : Failure)
  /-- The operating system refused a file. -/
  | fault (f : Fault)
  /-- An argument is wrong. -/
  | argument (s : Text)
deriving DecidableEq

/-- The complaint with its parts shown. -/
def Complaint.debug : Complaint → Text
  | .failure f => f.debug
  | .fault f => f.debug
  | .argument s => Text.quoted s

/-- A step of the program. -/
abbrev Step (α : Type) := ExceptT Complaint (StateM World) α

/-- A step that can only fail in a stage. -/
def attempt {α : Type} (step : Attempt World α) : Step α := fun w =>
  match step w with
  | (.ok a, w) => (.ok a, w)
  | (.error f, w) => (.error (.failure f), w)

/-- The same result, or a complaint about the failure. -/
def check {α : Type} : Except Failure α → Step α
  | .ok a => pure a
  | .error f => throw (.failure f)

/-- Print a line. -/
def print (s : Text) : Step Unit :=
  modify fun w => { w with output := w.output ++ Utf8.encode (s ++ ['\n']) }

/-- The configuration of a file. -/
def loadConfig (path : Text) : Attempt World Config := fun w =>
  match w.readText path with
  | .error fault =>
    (.error (.config ("Failed to read file '" ++ path ++ "': " ++ fault.message)), w)
  | .ok s => (Config.readNamed path s, w)

/-- The directory for source files. -/
def temporaryDirectory (w : World) : Text := (w.valueOf? "TMPDIR").getD "/tmp"

/-- The translator to use. -/
def chooseTranslator (rehearse : Bool) (w : World) : Except Failure Translator :=
  if rehearse then .ok (Translator.rehearsed .echo)
  else (Translator.Program.ofEnvironment w.valueOf?).map (·.translator)

/-- The checker for a configuration. -/
def makeChecker (translator : Translator) (config : Config) : Step Checker := do
  check (Checker.ofConfig translator (temporaryDirectory (← get)) config)

/-- Print the translation of a file. -/
def runTranslate (translator : Translator) (config : Config) (file : Text)
    (moduleName : Option Text) (request : Checker.Request) : Step Unit := do
  match (← get).readText file with
  | .error fault => throw (.fault fault)
  | .ok source =>
    let checker ← makeChecker translator config
    print (← attempt (checker.translate request moduleName source))

/-- The value of an artifact on an engine of its own; only a rehearsal has one. -/
def evaluate (rehearse : Bool) (artifact : Text) : Attempt World Value := fun w =>
  let engine := if rehearse then some (EngineCache.rehearsed .sums) else none
  match Checker.evaluate artifact ⟨w, engine⟩ with
  | (r, session) => (r, session.world)

/-- Print the translation of a snippet, and its value if that is asked for. -/
def runInline (translator : Translator) (config : Config) (rehearse : Bool) (file : Text) (line : Nat)
    (sentinel range : Option Text) (request : Checker.Request) (evaluated : Bool) : Step Unit := do
  let config := { config with sentinel := sentinel.getD config.sentinel }
  let preamble ← match range with
    | none => pure none
    | some range =>
      match readRange range with
      | .ok r => pure (some r)
      | .error d => throw (.argument (d.message range))
  let checker ← makeChecker translator config
  let translation ← attempt (checker.inline request ⟨file, line, preamble⟩)
  print translation.translated
  if evaluated then
    let value ← attempt (evaluate rehearse translation.translated)
    print ("=> " ++ value.display)

/-- Translate a project and build it, unless the build is skipped. -/
def runProject (translator : Translator) (config : Config) (file : Text) (profile : Profile)
    (skipBuild : Bool) : Step Unit := do
  let w ← get
  let build ← if skipBuild then pure none else do
    let project ← check (Project.ofTestFile file)
    pure (some (Build.ofEnvironment project.root profile w.valueOf?))
  let checker ← makeChecker translator config
  let _ ← attempt (Project.translateAndTest checker Project.onDisk file build)

/-- Carry out an invocation. -/
def Invocation.run (i : Invocation) : Step Unit := do
  let config ← match i.config with
    | some path => attempt (loadConfig path)
    | none => pure Config.default
  let translator ← check (chooseTranslator i.rehearse (← get))
  match i.command with
  | .translate file moduleName request => runTranslate translator config file moduleName request
  | .inline file line sentinel range request evaluated =>
    runInline translator config i.rehearse file line sentinel range request evaluated
  | .project file profile skipBuild => runProject translator config file profile skipBuild

/-- How the program ends. -/
structure Ending where
  status : Nat
  complaint : Option Complaint
  world : World

/-- Run the program. -/
def run (arguments : List Text) (w : World) : Ending :=
  let done (w : World) : Ending := ⟨0, none, w⟩
  match read arguments with
  | .misuse => ⟨2, none, w⟩
  | .version => done (print versionLine w).2
  | .help command => done (print (helpOn command) w).2
  | .run i =>
    match i.run w with
    | (.ok (), w) => done w
    | (.error c, w) => ⟨1, some c, w⟩

end Crosscheck.CommandLine
