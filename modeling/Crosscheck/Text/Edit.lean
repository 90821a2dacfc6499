import Crosscheck.Text.Basic
/-!
# Edits

An edit exchanges the part of a text between two positions. A list of edits with disjoint parts is
carried out from the last to the first, so that the positions of those still to come stay valid.
-/

namespace Crosscheck

/-- Exchange the characters from `start` up to `stop` for `by_`. -/
structure Edit where
  start : Nat
  stop : Nat
  by_ : Text
deriving DecidableEq

namespace Edit

/-- Carry out one edit. -/
def apply (e : Edit) (s : Text) : Text := s.take e.start ++ e.by_ ++ s.drop e.stop

/-- Carry out all edits, the last one first. -/
def applyAll (edits : List Edit) (s : Text) : Text :=
  (edits.mergeSort fun e f => f.start ≤ e.start).foldl (fun s e => e.apply s) s

end Edit

end Crosscheck
