import Crosscheck.World
/-!
# Builds

A build runs the unit tests of a project: a program is started with the name of the test task, with options
that make it run everything and print plainly, and with the project's directory.
-/

namespace Crosscheck

/-- Which kind of build is tested. -/
inductive Profile
  | debug
  | release
deriving DecidableEq

/-- The task that tests a kind of build. -/
def Profile.task : Profile → Text
  | .debug => "testDebugUnitTest"
  | .release => "testReleaseUnitTest"

/-- One run of the build program. -/
structure Build where
  program : Text
  /-- The directory of the project. -/
  directory : Text
  /-- The tasks to be run. -/
  actions : List Text
  /-- Where the development kit is. -/
  androidHome : Text
deriving DecidableEq

namespace Build

/-- The variable that says where the development kit is. -/
def homeVariable : Text := "ANDROID_HOME"

/-- Where the development kit is below a home directory. -/
def kitBelow (home : Text) : Text := home ++ "/Library/Android/sdk"

/-- Where the development kit is: as the environment says, or below the home directory. -/
def kit (lookup : Text → Option Text) : Text :=
  match lookup homeVariable with
  | some place => place
  | none =>
    match lookup "HOME" with
    | some home => kitBelow (home.reverse.dropWhile (· = '/')).reverse
    | none => kitBelow "~"

/-- The build that tests a project. -/
def ofEnvironment (directory : Text) (profile : Profile) (lookup : Text → Option Text) : Build where
  program := "gradle"
  directory := directory
  actions := [profile.task]
  androidHome := kit lookup

/-- Run everything, print plainly, and take the directory that follows. -/
def options : List Text := ["--console", "plain", "--info", "--rerun-tasks", "--project-dir"]

/-- The arguments of the build program. -/
def arguments (b : Build) : List Text := b.actions ++ options ++ [b.directory]

/-- The variables that the build program gets on top of the environment. -/
def settings (b : Build) : List (Text × Text) :=
  [(homeVariable, b.androidHome), ("GRADLE_OPTS", "-Xmx512m")]

/-- What the end of the build program means. -/
def verdict : ExitStatus → Except Failure Unit
  | .exited 0 => .ok ()
  | .exited code => .error (.buildFailed code)
  | .signaled _ => .error (.buildFailed (-1))

/-- Run the build. What it prints goes to the output of the run. -/
def run (b : Build) : Attempt World Unit := fun w =>
  match Shell.execute (w.launch b.settings) b.program b.arguments with
  | .error fault => (.error (.io ("Failed to run '" ++ b.program ++ "': " ++ fault.message)), w)
  | .ok o => (verdict o.status, { w with disk := o.disk, output := w.output ++ o.output })

end Build

end Crosscheck
