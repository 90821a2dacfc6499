import Crosscheck.Machine.Tools
/-!
# The standard disk

The directories and tools that are on every machine.
-/

namespace Crosscheck.Disk

/-- The directories with tools. -/
def toolDirectories : List Place := [["bin"], ["usr", "bin"]]

/-- Other names of the shell. -/
def otherShells : List Text := ["bash", "dash"]

/-- The disk of a machine on which nothing has been done. -/
def standard : Disk :=
  let others : List Place := [["tmp"], ["dev"]]
  let bare := (others ++ toolDirectories).foldl makeDirectories ⟨[]⟩
  let tooled := toolDirectories.foldl (fun d directory =>
    Tool.all.foldl (fun d t => d.put (directory ++ [t.name]) (.tool t)) d) bare
  let shells := toolDirectories.foldl (fun d directory =>
    otherShells.foldl (fun d name => d.put (directory ++ [name]) (.tool .sh)) d) tooled
  shells.put ["dev", "null"] .void

end Crosscheck.Disk
