import Crosscheck.Text.Quoted
/-!
# Faults

What the operating system answers when it refuses something.
-/

namespace Crosscheck

/-- A refusal of the operating system. -/
inductive Fault
  | notFound
  | notDirectory
  | isDirectory
  | permissionDenied
  | exists
  | badExecutable
  | tooManyLinks
  | nameTooLong
  /-- The content of a file is not text. -/
  | notText
  /-- A name has a character that no name can have. -/
  | badName
deriving DecidableEq

namespace Fault

/-- The number of the fault, its kind and its description. -/
def parts : Fault → Option Nat × Text × Text
  | .notFound => (some 2, "NotFound", "No such file or directory")
  | .badExecutable => (some 8, "Uncategorized", "Exec format error")
  | .permissionDenied => (some 13, "PermissionDenied", "Permission denied")
  | .exists => (some 17, "AlreadyExists", "File exists")
  | .notDirectory => (some 20, "NotADirectory", "Not a directory")
  | .isDirectory => (some 21, "IsADirectory", "Is a directory")
  | .nameTooLong => (some 36, "InvalidFilename", "File name too long")
  | .tooManyLinks => (some 40, "FilesystemLoop", "Too many levels of symbolic links")
  | .notText => (none, "InvalidData", "stream did not contain valid UTF-8")
  | .badName => (none, "InvalidInput", "file name contained an unexpected NUL byte")

/-- The fault in words. -/
def message (f : Fault) : Text :=
  match f.parts with
  | (some code, _, description) => description ++ " (os error " ++ Text.ofNat code ++ ")"
  | (none, _, description) => description

/-- The fault with its parts shown. -/
def debug (f : Fault) : Text :=
  match f.parts with
  | (some code, kind, description) =>
    "Os \x7b code: " ++ Text.ofNat code ++ ", kind: " ++ kind ++ ", message: " ++
      Text.quoted description ++ " \x7d"
  | (none, kind, description) =>
    "Error \x7b kind: " ++ kind ++ ", message: " ++ Text.quoted description ++ " \x7d"

end Fault

end Crosscheck
