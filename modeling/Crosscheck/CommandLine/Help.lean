import Crosscheck.Text.Lines
/-!
# Help

How the program and its commands are used.
-/

namespace Crosscheck.CommandLine

/-- The name of the program and its version. -/
def versionLine : Text := "skiff 0.1.0"

/-- How the program is used. -/
def generalHelp : Text := Text.ofLines [
  "Swift-to-Kotlin translation harness",
  "",
  "Usage: skiff [OPTIONS] <COMMAND>",
  "",
  "Commands:",
  "  translate  Translate a whole Swift file and print the Kotlin",
  "  inline     Translate the snippet that follows a line of a Swift file",
  "  project    Translate a Swift package and run its unit tests with Gradle",
  "  help       Print this message or the help of the given subcommand(s)",
  "",
  "Options:",
  "  -c, --config <config>  JSON harness configuration file",
  "  -m, --mock             Use the echoing mock translator instead of $SKIFF_TRANSLATOR",
  "  -h, --help             Print help",
  "  -V, --version          Print version"]

/-- How a file is translated. -/
def translateHelp : Text := Text.ofLines [
  "Translate a whole Swift file and print the Kotlin",
  "",
  "Usage: skiff translate [OPTIONS] <file>",
  "",
  "Arguments:",
  "  <file>  Swift source file",
  "",
  "Options:",
  "  -c, --config <config>  JSON harness configuration file",
  "      --module <module>  Package name for the generated file",
  "      --autoport         Repair Java standard library references",
  "  -m, --mock             Use the echoing mock translator instead of $SKIFF_TRANSLATOR",
  "      --test-case        Instrument the output as a JUnit test case",
  "  -h, --help             Print help"]

/-- How a snippet is translated. -/
def inlineHelp : Text := Text.ofLines [
  "Translate the snippet that follows a line of a Swift file",
  "",
  "Usage: skiff inline [OPTIONS] <file> <line>",
  "",
  "Arguments:",
  "  <file>  Swift source file",
  "  <line>  1-based line of the call site",
  "",
  "Options:",
  "  -c, --config <config>      JSON harness configuration file",
  "      --sentinel <sentinel>  Token closing the snippet (default: \"\x7d verify: \x7b\")",
  "  -m, --mock                 Use the echoing mock translator instead of $SKIFF_TRANSLATOR",
  "      --preamble <preamble>  Prepend the lines between marker lines START and END (1-based, both excluded)",
  "      --autoport             Repair Java standard library references",
  "      --evaluate             Evaluate the translation (requires --mock)",
  "  -h, --help                 Print help"]

/-- How a project is run. -/
def projectHelp : Text := Text.ofLines [
  "Translate a Swift package and run its unit tests with Gradle",
  "",
  "Usage: skiff project [OPTIONS] <test-file>",
  "",
  "Arguments:",
  "  <test-file>  A test file at <root>/Tests/<Module>Tests/<file>.swift",
  "",
  "Options:",
  "  -c, --config <config>  JSON harness configuration file",
  "      --release          Run testReleaseUnitTest instead of testDebugUnitTest",
  "  -m, --mock             Use the echoing mock translator instead of $SKIFF_TRANSLATOR",
  "      --skip-build       Only write the Kotlin files",
  "  -h, --help             Print help"]

/-- How help is asked for. -/
def helpHelp : Text := Text.ofLines [
  "Print this message or the help of the given subcommand(s)",
  "",
  "Usage: skiff help [COMMAND]...",
  "",
  "Arguments:",
  "  [COMMAND]...  Print help for the subcommand(s)"]

/-- The help on a command, or on the program. -/
def helpOn : Option Text → Text
  | none => generalHelp
  | some command =>
    if command = "translate".toList then translateHelp
    else if command = "inline".toList then inlineHelp
    else if command = "project".toList then projectHelp
    else helpHelp

end Crosscheck.CommandLine
