import Crosscheck.Proofs.Snippet.Location
import Crosscheck.Proofs.Text.Trimming
/-!
# Preamble lines that stand as they are

The preamble is what the file has strictly between two marker lines. Returns are taken out of the preamble
and the snippet together, so preamble lines stand as they are in the file unless one of them has a marked
return, or the last of them a plain one and there is no snippet behind it.
-/

namespace Crosscheck

namespace Text

variable {part s t : Text}

theorem Strips.eq_iff (hpart : part ≠ []) (h : Strips part s t) : t = s ↔ ¬ part <:+: s := by
  cases h with
  | clear hfree => exact iff_of_true rfl hfree
  | @cut u s t first rest =>
      refine iff_of_false ?_ (not_not.mpr ⟨u, s, by simp⟩)
      intro heq
      have hlength := congrArg List.length (List.append_cancel_left heq)
      have hle := rest.sublist.length_le
      have hpos := List.length_pos_iff.mpr hpart
      rw [List.length_append] at hlength
      omega

theorem strips_lines_eq_iff (hpart : part ≠ []) {lines clean : List Text}
    (h : List.Forall₂ (Strips part) lines clean) : clean = lines ↔ ∀ line ∈ lines, ¬ part <:+: line := by
  induction h with
  | nil => simp
  | cons hline _ ih => rw [List.cons.injEq, hline.eq_iff hpart, ih, List.forall_mem_cons]

end Text

namespace Snippet

variable {code path sentinel : Text} {startLine : Nat} {preamble : Option (Nat × Nat)} {s : Snippet}
  {lines leading body clean : List Text}

/-! ## The lines between the markers -/

/-- The lines whose numbers, counted from one, are strictly between two others. -/
def numberedBetween (lines : List Text) (first last : Nat) : List Text :=
  ((lines.zipIdx 1).filter fun (_, n) => first < n && n < last).map Prod.fst

/-- The lines strictly between the marker lines, if lines are marked. -/
def marked (lines : List Text) : Option (Nat × Nat) → List Text
  | none => []
  | some (first, last) => numberedBetween lines first last

private theorem filter_zipIdx (lines : List Text) (k first last : Nat) :
    ((lines.zipIdx k).filter fun (_, n) => first < n && n < last).map Prod.fst =
      (lines.drop (first + 1 - k)).take (last - max (first + 1) k) := by
  induction lines generalizing k with
  | nil => simp
  | cons line lines ih =>
      rw [List.zipIdx_cons]
      by_cases hk : first < k
      · have hskip : first + 1 - k = 0 := by omega
        have hskip' : first + 1 - (k + 1) = 0 := by omega
        by_cases hlast : k < last
        · rw [List.filter_cons_of_pos (by simp [hk, hlast]), List.map_cons, ih, hskip, hskip']
          obtain ⟨n, hn⟩ : ∃ n, last - max (first + 1) k = n + 1 := ⟨last - k - 1, by omega⟩
          have hn' : last - max (first + 1) (k + 1) = n := by omega
          rw [hn, hn', List.drop_zero, List.drop_zero, List.take_succ_cons]
        · have hnone : last - max (first + 1) k = 0 := by omega
          have hnone' : last - max (first + 1) (k + 1) = 0 := by omega
          rw [List.filter_cons_of_neg (by simp [hlast]), ih, hnone, hnone', List.take_zero, List.take_zero]
      · obtain ⟨n, hn⟩ : ∃ n, first + 1 - k = n + 1 := ⟨first - k, by omega⟩
        have hn' : first + 1 - (k + 1) = n := by omega
        have hmax : max (first + 1) (k + 1) = max (first + 1) k := by omega
        rw [List.filter_cons_of_neg (by simp [hk]), ih, hn, hn', hmax, List.drop_succ_cons]

theorem IsPreamble.eq_marked (h : IsPreamble lines preamble leading) : leading = marked lines preamble := by
  cases preamble with
  | none => exact h
  | some range =>
      obtain ⟨first, last⟩ := range
      have hslice := (isPreamble_between lines first last).symm.trans h
      obtain rfl := Option.some.inj hslice
      have hcount : last - max (first + 1) 1 = last - 1 - first := by omega
      rw [marked, numberedBetween, filter_zipIdx, Nat.add_sub_cancel, hcount, between]
      by_cases hfirst : first < lines.length
      · rw [Nat.min_eq_left hfirst.le, List.take_eq_take_iff, List.length_drop]
        omega
      · rw [List.drop_eq_nil_of_le (by omega), List.drop_eq_nil_of_le (by omega), List.take_nil, List.take_nil]

/-! ## Which of them stay -/

/-- Lines that are followed by others keep their returns. -/
theorem Unreturned.take_eq {n : Nat} (h : Unreturned clean lines) (hn : n < clean.length) :
    lines.take n = clean.take n := by
  cases h with
  | nothing => rfl
  | kept => rfl
  | @stripped before =>
      have hle : n ≤ before.length := by simpa [Nat.lt_succ_iff] using hn
      rw [List.take_append_of_le_length hle, List.take_append_of_le_length hle]

private theorem length_lt {last value : Text} (h : Text.trim last = returnLead ++ value) :
    value.length < last.length := by
  have hlength := congrArg List.length h
  have hle := (Text.trim_sublist last).length_le
  have hlead : returnLead.length = 7 := rfl
  rw [List.length_append, hlead] at hlength
  omega

/-- Lines stay the same if there is no return to be taken off the last of them. -/
theorem Unreturned.eq_iff (h : Unreturned clean lines) :
    lines = clean ↔ ∀ last ∈ clean.getLast?, ¬ returnLead <+: Text.trim last := by
  cases h with
  | nothing => simp
  | kept hfree => simpa using hfree
  | @stripped before last value hvalue =>
      refine iff_of_false ?_ (not_forall.mpr ⟨last, by simp [hvalue]⟩)
      intro heq
      obtain rfl : value = last := by simpa using heq
      exact absurd (length_lt hvalue) (Nat.lt_irrefl _)

/-- Taking a return off does not undo what taking markers out has done. -/
theorem Unreturned.eq_of_strips (h : Unreturned clean lines)
    (hclean : List.Forall₂ (Text.Strips noReturnMarker) lines clean) : lines = clean := by
  cases h with
  | nothing => rfl
  | kept => rfl
  | @stripped before last value hvalue =>
      have hlast : List.Forall₂ (Text.Strips noReturnMarker) [value] [last] := by
        simpa using List.forall₂_drop_append _ _ _ hclean
      have hle := (List.forall₂_cons.mp hlast).1.sublist.length_le
      exact absurd (length_lt hvalue) (Nat.not_lt.mpr hle)

/-- Lines that lead stay as they are if there is no marked return in them, and no plain one at their end
when nothing follows them. -/
theorem take_eq_iff (hclean : List.Forall₂ (Text.Strips noReturnMarker) (leading ++ body) clean)
    (hlines : Unreturned clean lines) : lines.take leading.length = leading ↔
      (∀ line ∈ leading, ¬ noReturnMarker <:+: line) ∧
        (body = [] → ∀ last ∈ leading.getLast?, ¬ returnLead <+: Text.trim last) := by
  have hlength := hclean.length_eq
  have hleading := (List.forall₂_take_append _ _ _ hclean.flip).flip
  have hmarker := Text.strips_lines_eq_iff (by decide) hleading
  by_cases hbody : body = []
  · subst hbody
    rw [List.append_nil] at hlength
    have hwhole : clean.take leading.length = clean := by rw [hlength, List.take_length]
    rw [hwhole] at hmarker
    rw [List.append_nil] at hclean
    rw [hlength, ← hlines.length_eq, List.take_length, ← hmarker]
    constructor
    · intro heq
      have hsame : lines = clean := hlines.eq_of_strips (heq ▸ hclean)
      refine ⟨hsame.symm.trans heq, fun _ => ?_⟩
      rw [← heq, hsame]
      exact hlines.eq_iff.mp hsame
    · intro ⟨hkept, hfree⟩
      rw [← hkept] at hfree ⊢
      exact hlines.eq_iff.mpr (hfree rfl)
  · have hshort : leading.length < clean.length := by
      have hpos := List.length_pos_iff.mpr hbody
      rw [List.length_append] at hlength
      omega
    rw [hlines.take_eq hshort, hmarker]
    simp [hbody]

/-- A snippet has as many preamble lines as there are lines between its markers. They stand as they are in
the file unless one of them has a marked return, or the last of them a plain one and the line that follows
the call closes the snippet at once. -/
theorem preamble_verbatim_iff (h : locate code path startLine sentinel preamble = .ok s) :
    s.fragment.preambleLength = (marked (Text.splitLines code) preamble).length ∧
    (s.fragment.lines.take s.fragment.preambleLength = marked (Text.splitLines code) preamble ↔
      (∀ line ∈ marked (Text.splitLines code) preamble, ¬ noReturnMarker <:+: line) ∧
      (EndsAt (Text.splitLines code) startLine sentinel startLine →
        ∀ last ∈ (marked (Text.splitLines code) preamble).getLast?,
          ¬ returnLead <+: Text.trim last)) := by
  obtain ⟨i, hi, hfirst, leading, body, clean, -, hleading, hbody, -, -, -, hlength, hclean, hlines, -⟩ :=
    cutAt_of_locate h
  obtain rfl := hleading.eq_marked
  have hempty : body = [] ↔ EndsAt (Text.splitLines code) startLine sentinel startLine := by
    rw [← List.length_eq_zero_iff, Checked.length_of_slice? hbody]
    constructor
    · intro hzero
      have hstart : i = startLine := by have := hi.1; omega
      exact hstart ▸ hi
    · intro hends
      have hle : ¬ startLine < i := fun hlt => hfirst startLine hlt hends
      omega
  rw [hlength, take_eq_iff hclean hlines, hempty]
  exact ⟨rfl, Iff.rfl⟩

private def returningCode : Text := "begin\n  return a\nlet b\nend\ncall\nreturn b\nstop"

/-- The return of a preamble line that other lines follow stays, that of the snippet does not. -/
theorem preamble_verbatim_iff_followed :
    ∃ s, locate returningCode "A.swift" 5 "stop" (some (1, 4)) = .ok s ∧
      s.fragment.preambleLength = 2 ∧ s.fragment.body = ["b".toList] ∧
      s.fragment.lines.take s.fragment.preambleLength = ["  return a".toList, "let b".toList] := by
  have hlines : Text.splitLines returningCode = ["begin".toList, "  return a".toList, "let b".toList,
    "end".toList, "call".toList, "return b".toList, "stop".toList] := by decide
  obtain ⟨s, hlocate, hbody⟩ : ∃ s, locate returningCode "A.swift" 5 "stop" (some (1, 4)) = .ok s ∧
      s.fragment.body = ["b".toList] := ⟨_, rfl, by decide⟩
  have hmarked : marked (Text.splitLines returningCode) (some (1, 4)) =
      ["  return a".toList, "let b".toList] := by rw [hlines]; decide
  obtain ⟨hlength, hverbatim⟩ := preamble_verbatim_iff hlocate
  rw [hmarked] at hlength hverbatim
  refine ⟨s, hlocate, hlength, hbody, hverbatim.mpr ⟨by decide, ?_⟩⟩
  -- the snippet has a line, so the last preamble line is not the last of all
  intro ⟨_, line, hline, hcloses⟩
  rw [hlines] at hline
  obtain rfl := Option.some.inj hline
  exact absurd hcloses (by decide)

/-- With an empty snippet, the return of the last preamble line is taken for that of the snippet. -/
theorem preamble_return_taken :
    ∃ s, locate "m\n  return a\nm\ncall\n\x7d verify: \x7b" "Test.swift" 4 defaultSentinel (some (1, 3)) =
        .ok s ∧
      s.fragment.lines.take s.fragment.preambleLength = ["a".toList] ∧
      marked (Text.splitLines "m\n  return a\nm\ncall\n\x7d verify: \x7b") (some (1, 3)) =
        ["  return a".toList] :=
  ⟨_, rfl, by decide, by decide⟩

end Snippet

end Crosscheck
