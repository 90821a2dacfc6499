import Crosscheck.Proofs.Text.Offsets
import Crosscheck.Proofs.Text.Splice
/-!
# Edits of an encoded text

A text that is kept as bytes is edited at offsets in these bytes, and an edit that would go out of bounds
or take a character apart cannot be carried out. Edits of disjoint parts at boundaries can all be carried out
from the last to the first: what stands before an edit is not changed by those behind it.
-/

namespace Crosscheck.Edit

variable {s t : Text} {e : Edit} {edits spans : List Edit}

/-- The edit with offsets in the bytes of `s` for its places. -/
def inBytes (s : Text) (e : Edit) : Edit := ⟨Utf8.offset s e.start, Utf8.offset s e.stop, e.by_⟩

/-- Carry out an edit of bytes, if both its places are boundaries and in order. -/
def splice? (e : Edit) (bytes : Bytes) : Option Bytes :=
  if e.start ≤ e.stop ∧ Utf8.isBoundary bytes e.start ∧ Utf8.isBoundary bytes e.stop then
    some (bytes.take e.start ++ Utf8.encode e.by_ ++ bytes.drop e.stop)
  else none

/-- Carry out all edits of bytes, the last one first, if each can be carried out in its turn. -/
def spliceAll? (edits : List Edit) (bytes : Bytes) : Option Bytes :=
  (edits.mergeSort fun e f => f.start ≤ e.start).foldlM (fun bytes e => e.splice? bytes) bytes

/-- The edits exchange parts of the bytes of `s` between boundaries in their order, none overlaps the next,
and no two start together. -/
structure Bounded (s : Text) (spans : List Edit) : Prop where
  order : spans.Pairwise fun e f => e.stop ≤ f.start ∧ e.start < f.start
  inside : ∀ e ∈ spans, e.start ≤ e.stop ∧ Utf8.isBoundary (Utf8.encode s) e.start ∧
    Utf8.isBoundary (Utf8.encode s) e.stop

theorem Ascending.bounded (h : Ascending s edits) : Bounded s (edits.map (inBytes s)) := by
  have hmono := Utf8.strictMonoOn_offset s
  constructor
  · rw [List.pairwise_map]
    apply h.order.imp_of_mem
    intro e f he hf hef
    obtain ⟨hle, hlen⟩ := h.inside e he
    obtain ⟨hle', hlen'⟩ := h.inside f hf
    have hfirst := Nat.le_trans hle' hlen'
    exact ⟨(hmono.le_iff_le hlen hfirst).mpr hef.1, hmono (Nat.le_trans hle hlen) hfirst hef.2⟩
  · intro e he
    obtain ⟨f, hf, rfl⟩ := List.mem_map.mp he
    obtain ⟨hle, hlen⟩ := h.inside f hf
    exact ⟨(hmono.le_iff_le (Nat.le_trans hle hlen) hlen).mpr hle, Utf8.isBoundary_offset s f.start,
      Utf8.isBoundary_offset s f.stop⟩

theorem exists_places (h : ∀ e ∈ spans, Utf8.isBoundary (Utf8.encode s) e.start ∧
    Utf8.isBoundary (Utf8.encode s) e.stop) : ∃ edits : List Edit,
      (∀ e ∈ edits, e.start ≤ s.length ∧ e.stop ≤ s.length) ∧ spans = edits.map (inBytes s) := by
  induction spans with
  | nil => exact ⟨[], nofun, rfl⟩
  | cons e es ih =>
      obtain ⟨⟨hstart, hstop⟩, hes⟩ := List.forall_mem_cons.mp h
      obtain ⟨j, hj, hstart⟩ := Utf8.exists_offset hstart
      obtain ⟨k, hk, hstop⟩ := Utf8.exists_offset hstop
      obtain ⟨edits, hplaces, rfl⟩ := ih hes
      refine ⟨⟨j, k, e.by_⟩ :: edits, List.forall_mem_cons.mpr ⟨⟨hj, hk⟩, hplaces⟩, ?_⟩
      rw [List.map_cons, inBytes, ← hstart, ← hstop]

/-- Edits between boundaries are edits of the text with their places counted in bytes. -/
theorem Bounded.exists_ascending (h : Bounded s spans) :
    ∃ edits, Ascending s edits ∧ spans = edits.map (inBytes s) := by
  have hmono := Utf8.strictMonoOn_offset s
  obtain ⟨edits, hplaces, rfl⟩ := exists_places fun e he => (h.inside e he).2
  refine ⟨edits, ⟨?_, ?_⟩, rfl⟩
  · apply (List.pairwise_map.mp h.order).imp_of_mem
    intro e f he hf hef
    obtain ⟨-, hstop⟩ := hplaces e he
    obtain ⟨hstart, -⟩ := hplaces f hf
    exact ⟨(hmono.le_iff_le hstop hstart).mp hef.1, (hmono.lt_iff_lt (hplaces e he).1 hstart).mp hef.2⟩
  · intro e he
    obtain ⟨hstart, hstop⟩ := hplaces e he
    have hle := (h.inside _ (List.mem_map_of_mem he)).1
    exact ⟨(hmono.le_iff_le hstart hstop).mp hle, hstop⟩

/-- An edit in bytes has the effect of the edit in characters, also when text behind it has changed. -/
theorem splice?_inBytes (hle : e.start ≤ e.stop) (hlen : e.stop ≤ s.length)
    (hsame : t.take e.stop = s.take e.stop) :
    (e.inBytes s).splice? (Utf8.encode t) = some (Utf8.encode (e.apply t)) := by
  have hstart := Utf8.offset_congr hsame hle
  have hstop := Utf8.offset_congr hsame (Nat.le_refl e.stop)
  have hmono := Utf8.strictMonoOn_offset s
  have horder : Utf8.offset s e.start ≤ Utf8.offset s e.stop :=
    (hmono.le_iff_le (Nat.le_trans hle hlen) hlen).mpr hle
  have hbounds : Utf8.isBoundary (Utf8.encode t) (Utf8.offset s e.start) ∧
      Utf8.isBoundary (Utf8.encode t) (Utf8.offset s e.stop) := by
    rw [← hstart, ← hstop]
    exact ⟨Utf8.isBoundary_offset t _, Utf8.isBoundary_offset t _⟩
  rw [splice?, inBytes, if_pos ⟨horder, hbounds⟩, ← hstart, ← hstop, Utf8.take_offset, Utf8.drop_offset, apply,
    Utf8.encode_append, Utf8.encode_append]

/-- Edits of disjoint parts can be carried out one after the other, the last one first. -/
theorem Ascending.foldrM_splice? (h : Ascending s edits) :
    edits.foldrM (fun e bytes => (e.inBytes s).splice? bytes) (Utf8.encode s) =
      some (Utf8.encode (edits.foldr (fun e t => e.apply t) s)) := by
  induction edits with
  | nil => rfl
  | cons e es ih =>
      obtain ⟨hes, htail⟩ := List.pairwise_cons.mp h.order
      obtain ⟨hle, hlen⟩ := h.inside e List.mem_cons_self
      have hrest : Ascending s es := ⟨htail, fun f hf => h.inside f (List.mem_cons_of_mem e hf)⟩
      have hsame : (es.foldr (fun e t => e.apply t) s).take e.stop = s.take e.stop := by
        rw [foldr_apply hrest fun f hf => (hes f hf).1]
        exact List.take_left' (List.length_take_of_le hlen)
      rw [List.foldrM_cons, ih hrest]
      exact splice?_inBytes hle hlen hsame

theorem Ascending.spliceAll? (h : Ascending s edits) :
    spliceAll? (edits.map (inBytes s)) (Utf8.encode s) = some (Utf8.encode (applyAll edits s)) := by
  rw [Edit.spliceAll?, mergeSort_ascending h.bounded.order, List.foldlM_reverse, List.foldrM_map,
    h.foldrM_splice?, applyAll, mergeSort_ascending h.order, List.foldl_reverse]

end Crosscheck.Edit
