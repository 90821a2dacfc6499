import Crosscheck.Proofs.Checker.Mismatch
import Crosscheck.Proofs.Engine.LastExpression
import Crosscheck.Proofs.Text.Breaks
/-!
# The end of a translation

The literal of a snippet is compared with the last lines of the translated text. They are found by counting
newlines from the end, which takes no character apart, and they are what a rehearsed engine looks at if the
literal is a line.
-/

namespace Crosscheck.Checker

open Text

variable {literal translated p u v : Text}

/-- How many lines a literal is compared with. -/
def wanted (literal : Text) : Nat := max 1 (lines (trim literal)).length

section
variable {c : Checker} {r : Request} {site : Site} {session : Session} {snippet : Snippet} {w : World}

end

end Crosscheck.Checker
