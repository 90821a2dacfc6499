import Crosscheck.Conditional.Resolver
import Crosscheck.Proofs.Pattern.Rewriting
import Crosscheck.Proofs.Text.Bytewise
/-!
# A pass exchanges its blocks at once

A pass carries out its edits one after the other, from the last to the first, each on the text as the ones
before it have left it. What comes out is the text put together from left to right out of the replacements and
the parts between the blocks. This holds also when the text is kept as bytes: no edit is out of bounds then,
and none takes a character apart.
-/

namespace Crosscheck.Resolver

variable {s : Text} {edits : List Edit}

/-- The blocks of a pass are disjoint, in order, and within the text. -/
theorem ascending_edits (r : Resolver) (s : Text) : Edit.Ascending s (r.edits s) :=
  Regex.ascending_allMatches r.block r.replacement s

theorem pass?_eq_leftToRight (r : Resolver) (s : Text) :
    r.pass? s = if r.edits s = [] then none else some (Edit.leftToRight 0 s (r.edits s)) := by
  rw [← Edit.applyAll_ascending (ascending_edits r s), pass?]
  cases r.edits s with
  | nil => rfl
  | cons e es => rfl

/-- Edits in the bytes of a text that are disjoint, in order and between characters are edits of the text
itself. One after the other they can all be carried out on the bytes, and give the bytes of the text put
together from left to right. A pass has such edits, and none if and only if it reports no change. -/
theorem pass_simultaneous (s : Text) :
    (∀ spans, Edit.Bounded s spans ↔
      ∃ edits, Edit.Ascending s edits ∧ spans = edits.map (Edit.inBytes s)) ∧
    (∀ edits, Edit.Ascending s edits →
      Edit.applyAll edits s = Edit.leftToRight 0 s edits ∧
      Edit.spliceAll? (edits.map (Edit.inBytes s)) (Utf8.encode s) =
        some (Utf8.encode (Edit.leftToRight 0 s edits))) ∧
    ∀ r : Resolver, Edit.Ascending s (r.edits s) ∧
      r.pass? s = if r.edits s = [] then none else some (Edit.leftToRight 0 s (r.edits s)) := by
  constructor
  · intro spans
    constructor
    · exact Edit.Bounded.exists_ascending
    · rintro ⟨edits, hedits, rfl⟩
      exact hedits.bounded
  constructor
  · intro edits hedits
    have hall := Edit.applyAll_ascending hedits
    rw [← hall]
    exact ⟨rfl, hedits.spliceAll?⟩
  · intro r
    exact ⟨ascending_edits r s, pass?_eq_leftToRight r s⟩

/-- A longer text, one put in between, and one left out, where every character has two bytes. -/
theorem pass_simultaneous_greek :
    Edit.spliceAll? [⟨0, 2, "xyz"⟩, ⟨2, 2, "é"⟩, ⟨4, 6, ""⟩] (Utf8.encode "αβγδ") =
      some (Utf8.encode "xyzéβδ") := by
  have hedits : Edit.Ascending "αβγδ" [⟨0, 1, "xyz"⟩, ⟨1, 1, "é"⟩, ⟨2, 3, ""⟩] := by
    constructor
    · decide
    · decide
  exact ((pass_simultaneous "αβγδ").2.1 _ hedits).2

end Crosscheck.Resolver
