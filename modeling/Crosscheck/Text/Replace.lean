import Crosscheck.Text.Basic
/-!
# Replacing occurrences

Occurrences are taken from left to right and do not overlap: the search goes on after the end of
the one just found. Replacing the empty text inserts at every boundary, both ends included.
-/

namespace Crosscheck.Text

/-- Replace the non-overlapping occurrences of `part`, after passing over `skip` characters that
belong to the occurrence found last. -/
def replaceFrom (part by_ : Text) : Nat → Text → Text
  | _, [] => []
  | skip + 1, _ :: s => replaceFrom part by_ skip s
  | 0, c :: s =>
    if part.isPrefixOf (c :: s) then by_ ++ replaceFrom part by_ (part.length - 1) s
    else c :: replaceFrom part by_ 0 s

/-- Put `by_` before every character and at the end. -/
def insertEverywhere (by_ : Text) (s : Text) : Text :=
  s.foldr (fun c rest => by_ ++ c :: rest) by_

/-- Replace every occurrence of `part` in `s`. -/
def replaceAll (part by_ s : Text) : Text :=
  if part.isEmpty then insertEverywhere by_ s else replaceFrom part by_ 0 s

/-- Put `lead` before the first occurrence of `part`, if there is one. -/
def insertBeforeFirst (part lead : Text) : Text → Text
  | [] => if part.isEmpty then lead else []
  | c :: s =>
    if part.isPrefixOf (c :: s) then lead ++ c :: s else c :: insertBeforeFirst part lead s

end Crosscheck.Text
