import Crosscheck.Proofs.Text.Lines
import Crosscheck.Proofs.Text.Replacement
import Crosscheck.Snippet.Locate
import Mathlib.Algebra.Ring.Nat
import Mathlib.Data.List.Forall2
import Mathlib.Data.List.Infix
import Mathlib.Data.Nat.Find
/-!
# Which lines a snippet is made of

Locating a snippet is specified line by line, with the steps of it that could fail written as steps that
may fail: none of them does. Lines put in front afterwards leave the snippet as it was cut.
-/

namespace Crosscheck

namespace Text

variable {part by_ s t u : Text}

theorem after?_eq_some {lead rest : Text} : after? lead s = some rest ↔ s = lead ++ rest := by
  rw [after?, List.isPrefixOf?_eq_some_iff_append_eq]
  exact eq_comm

theorem after?_eq_none {lead : Text} (h : after? lead s = none) : ¬ lead <+: s := by
  intro ⟨rest, hrest⟩
  have hsome := after?_eq_some.mpr hrest.symm
  simp [h] at hsome

/-- `t` is left of `s` when `part` is taken out from left to right. -/
inductive Strips (part : Text) : Text → Text → Prop
  | clear {s : Text} (h : ¬ part <:+: s) : Strips part s s
  | cut {u s t : Text} (first : ∀ p q, u ++ (part ++ s) = p ++ (part ++ q) → u.length ≤ p.length)
      (rest : Strips part s t) : Strips part (u ++ (part ++ s)) (u ++ t)

theorem Strips.sublist (h : Strips part s t) : t.Sublist s := by
  induction h with
  | clear => exact .refl _
  | @cut u s t _ _ ih => exact (List.Sublist.refl u).append (ih.trans (List.sublist_append_right part s))

theorem replaceFrom_of_free (h : ¬ part <:+: s) : replaceFrom part by_ 0 s = s := by
  induction s with
  | nil => rfl
  | cons c s ih =>
      have hlead : ¬ part <+: c :: s := fun hp => h hp.isInfix
      have hrest : ¬ part <:+: s := fun hi => h (hi.trans (List.suffix_cons c s).isInfix)
      rw [replaceFrom_keep hlead, ih hrest]

theorem replaceFrom_first (hpart : part ≠ [])
    (first : ∀ p q, u ++ (part ++ s) = p ++ (part ++ q) → u.length ≤ p.length) :
    replaceFrom part by_ 0 (u ++ (part ++ s)) = u ++ (by_ ++ replaceFrom part by_ 0 s) := by
  induction u with
  | nil => exact replaceFrom_part hpart s
  | cons c u ih =>
      have hlead : ¬ part <+: c :: (u ++ (part ++ s)) := by
        intro ⟨q, hq⟩
        have hle := first [] q hq.symm
        simp at hle
      have hlater : ∀ p q, u ++ (part ++ s) = p ++ (part ++ q) → u.length ≤ p.length := by
        intro p q h
        have hle := first (c :: p) q (by simp [h])
        simpa using hle
      rw [List.cons_append, replaceFrom_keep hlead, ih hlater, List.cons_append]

theorem exists_first (h : part <:+: s) : ∃ u t, s = u ++ (part ++ t) ∧
    ∀ p q, s = p ++ (part ++ q) → u.length ≤ p.length := by
  classical
  have hplace : ∃ n p q, s = p ++ (part ++ q) ∧ p.length = n := by
    obtain ⟨p, q, hpq⟩ := h
    exact ⟨p.length, p, q, by simp [← hpq], rfl⟩
  obtain ⟨u, t, hs, hu⟩ := Nat.find_spec hplace
  refine ⟨u, t, hs, ?_⟩
  intro p q hp
  rw [hu]
  exact Nat.find_min' hplace ⟨p, q, hp, rfl⟩

theorem strips_replaceFrom (hpart : part ≠ []) (s : Text) : Strips part s (replaceFrom part [] 0 s) := by
  induction hn : s.length using Nat.strongRecOn generalizing s with
  | ind n ih =>
      by_cases h : part <:+: s
      · obtain ⟨u, t, rfl, first⟩ := exists_first h
        have hpos := List.length_pos_iff.mpr hpart
        have hrest := ih t.length (by simp only [← hn, List.length_append]; omega) t rfl
        rw [replaceFrom_first hpart first, List.nil_append]
        exact .cut first hrest
      · rw [replaceFrom_of_free h]
        exact .clear h

end Text

/-! ## Steps that may fail -/

namespace Checked

/-- The elements from `start` up to `stop`, which have to be places of the list in this order. -/
def slice? {α : Type} (xs : List α) (start stop : Nat) : Option (List α) :=
  if start ≤ stop ∧ stop ≤ xs.length then some ((xs.drop start).take (stop - start)) else none

/-- A sum that has to fit a word of 64 bits. -/
def add? (m n : Nat) : Option Nat := if m + n < 2 ^ 64 then some (m + n) else none

variable {α : Type} {xs : List α} {start stop m n : Nat}

theorem slice?_of_le (hstart : start ≤ stop) (hstop : stop ≤ xs.length) :
    slice? xs start stop = some ((xs.drop start).take (stop - start)) :=
  if_pos ⟨hstart, hstop⟩

theorem length_of_slice? {ys : List α} (h : slice? xs start stop = some ys) : ys.length = stop - start := by
  rw [slice?] at h
  split at h
  · obtain rfl := Option.some.inj h
    rw [List.length_take, List.length_drop]
    omega
  · cases h

theorem slice?_zero (hstop : stop ≤ xs.length) : slice? xs 0 stop = some (xs.take stop) := by
  simp [slice?, hstop]

theorem slice?_length (hstart : start ≤ xs.length) : slice? xs start xs.length = some (xs.drop start) := by
  simp [slice?, hstart]

theorem add?_of_lt (h : m + n < 2 ^ 64) : add? m n = some (m + n) := if_pos h

end Checked

namespace Snippet

open Checked (slice? slice?_of_le length_of_slice? slice?_zero slice?_length add? add?_of_lt)

/-! ## The specification -/

/-- Line `i` ends a snippet that follows line `startLine`. -/
def EndsAt (lines : List Text) (startLine : Nat) (sentinel : Text) (i : Nat) : Prop :=
  startLine ≤ i ∧ ∃ line, lines[i]? = some line ∧ sentinel <+: Text.trim line

/-- The lines strictly between two marker lines, both clamped to the lines that there are. -/
def IsPreamble (lines : List Text) : Option (Nat × Nat) → List Text → Prop
  | none, leading => leading = []
  | some (first, last), leading =>
    let start := min first lines.length
    let stop := max (min (last - 1) lines.length) start
    slice? lines start stop = some leading

/-- The literal that a line expects: the trimmed text after the sentinel, a colon and a space. -/
inductive Expects (sentinel closing : Text) : Option Text → Prop
  | literal {rest : Text} (h : Text.trim closing = sentinel ++ (": ".toList ++ rest))
      (hrest : Text.trim rest ≠ []) : Expects sentinel closing (some (Text.trim rest))
  | nothing (h : ∀ rest, Text.trim closing = sentinel ++ (": ".toList ++ rest) → Text.trim rest = []) :
      Expects sentinel closing none

/-- A return is taken off the last of the lines if there is one. -/
inductive Unreturned : List Text → List Text → Prop
  | nothing : Unreturned [] []
  | stripped {before : List Text} {last value : Text} (h : Text.trim last = returnLead ++ value) :
      Unreturned (before ++ [last]) (before ++ [value])
  | kept {before : List Text} {last : Text} (h : ¬ returnLead <+: Text.trim last) :
      Unreturned (before ++ [last]) (before ++ [last])

/-- The snippet is the one that follows line `startLine` and ends before line `i`. -/
def CutAt (lines : List Text) (path : Text) (startLine : Nat) (sentinel : Text)
    (preamble : Option (Nat × Nat)) (i : Nat) (s : Snippet) : Prop :=
  ∃ leading body clean closing, IsPreamble lines preamble leading ∧
    slice? lines startLine i = some body ∧ lines[i]? = some closing ∧
    s.fragment.path = path ∧ s.fragment.firstLine = startLine + 1 ∧
    s.fragment.preambleLength = leading.length ∧
    List.Forall₂ (Text.Strips noReturnMarker) (leading ++ body) clean ∧
    Unreturned clean s.fragment.lines ∧ Expects sentinel closing s.expectation

/-! ## Each part meets it -/

variable {lines : List Text} {code path sentinel line : Text} {startLine i : Nat}
  {preamble : Option (Nat × Nat)} {s : Snippet}

theorem closes_iff : closes sentinel line ↔ sentinel <+: Text.trim line := by
  rw [closes, List.isPrefixOf_iff_prefix]

instance : Decidable (EndsAt lines startLine sentinel i) :=
  decidable_of_iff (startLine ≤ i ∧ lines[i]?.any (closes sentinel)) (by
    simp [EndsAt, Option.any_eq_true, closes_iff])

theorem isPreamble_between (lines : List Text) (first last : Nat) :
    IsPreamble lines (some (first, last)) (between lines first last) := by
  have hstop : max (min (last - 1) lines.length) (min first lines.length) ≤ lines.length := by omega
  exact slice?_of_le (Nat.le_max_right _ _) hstop

theorem expects_expectationOn (sentinel closing : Text) :
    Expects sentinel closing (expectationOn sentinel closing) := by
  have hnothing (h : ∀ rest, Text.trim closing = sentinel ++ (": ".toList ++ rest) → False) :
      Expects sentinel closing none := .nothing fun rest hrest => (h rest hrest).elim
  rw [expectationOn]
  cases hsentinel : Text.after? sentinel (Text.trim closing) with
  | none =>
      apply hnothing
      intro rest hrest
      exact Text.after?_eq_none hsentinel ⟨_, hrest.symm⟩
  | some tail =>
      rw [Text.after?_eq_some] at hsentinel
      cases hcolon : Text.after? ": ".toList tail with
      | none =>
          simp only [hcolon]
          apply hnothing
          intro rest hrest
          rw [hsentinel] at hrest
          exact Text.after?_eq_none hcolon ⟨rest, (List.append_cancel_left hrest).symm⟩
      | some literal =>
          simp only [hcolon]
          rw [Text.after?_eq_some] at hcolon
          rw [hcolon] at hsentinel
          by_cases hempty : Text.trim literal = []
          · simp only [hempty, List.isEmpty_nil, if_true]
            apply Expects.nothing
            intro rest hrest
            rw [hsentinel] at hrest
            have hsame := List.append_cancel_left (List.append_cancel_left hrest)
            rw [← hsame, hempty]
          · simp only [List.isEmpty_eq_false_iff.mpr hempty]
            exact .literal hsentinel hempty

theorem strips_dropMarker (line : Text) : Text.Strips noReturnMarker line (dropMarker line) := by
  have hmarker : noReturnMarker ≠ [] := by decide
  rw [dropMarker, Text.replaceAll_eq hmarker]
  exact Text.strips_replaceFrom hmarker line

theorem dropReturn_of_after {value : Text} (h : Text.trim line = returnLead ++ value) :
    dropReturn line = value := by
  rw [dropReturn, Text.after?_eq_some.mpr h]

theorem dropReturn_of_not (h : ¬ returnLead <+: Text.trim line) : dropReturn line = line := by
  rw [dropReturn]
  split
  · next value hvalue =>
    exact absurd ⟨value, (Text.after?_eq_some.mp hvalue).symm⟩ h
  · rfl

theorem dropLastReturn_append (before : List Text) (last : Text) :
    dropLastReturn (before ++ [last]) = before ++ [dropReturn last] := by
  induction before with
  | nil => rfl
  | cons line before ih =>
      rw [List.cons_append, dropLastReturn, ih, List.cons_append]
      simp

theorem unreturned_dropLastReturn (ls : List Text) : Unreturned ls (dropLastReturn ls) := by
  rcases List.eq_nil_or_concat ls with rfl | ⟨before, last, rfl⟩
  · exact .nothing
  · rw [List.concat_eq_append, dropLastReturn_append]
    by_cases h : returnLead <+: Text.trim last
    · obtain ⟨value, hvalue⟩ := h
      rw [dropReturn_of_after hvalue.symm]
      exact .stripped hvalue.symm
    · rw [dropReturn_of_not h]
      exact .kept h

theorem Unreturned.length_eq {clean : List Text} (h : Unreturned clean lines) : lines.length = clean.length := by
  cases h <;> simp

theorem length_dropLastReturn (ls : List Text) : (dropLastReturn ls).length = ls.length := by
  rcases List.eq_nil_or_concat ls with rfl | ⟨before, last, rfl⟩
  · rfl
  · simp [dropLastReturn_append]

theorem length_normalizeReturns (ls : List Text) : (normalizeReturns ls).length = ls.length := by
  rw [normalizeReturns, length_dropLastReturn, List.length_map]

/-- The first closing line ahead, as it is found by walking over the others. -/
theorem ahead_of_endsAt (h : EndsAt lines startLine sentinel i)
    (hfirst : ∀ j < i, ¬ EndsAt lines startLine sentinel j) :
    (lines.drop startLine).findIdx (closes sentinel) = i - startLine := by
  obtain ⟨hstart, line, hline, hsentinel⟩ := h
  have hi := (List.getElem?_eq_some_iff.mp hline).1
  have hlength : i - startLine < (lines.drop startLine).length := by
    rw [List.length_drop]
    omega
  rw [List.findIdx_eq hlength]
  constructor
  · have hsame : (lines.drop startLine)[i - startLine]? = some line := by
      rw [List.getElem?_drop, Nat.add_sub_cancel' hstart, hline]
    have hget := (List.getElem?_eq_some_iff.mp hsame).2
    rw [hget]
    exact closes_iff.mpr hsentinel
  · intro j hj
    rw [← Bool.not_eq_true]
    intro hcloses
    apply hfirst (startLine + j) (by omega)
    refine ⟨Nat.le_add_right _ _, _, ?_, closes_iff.mp hcloses⟩
    rw [← List.getElem?_drop, List.getElem?_eq_getElem]

/-- The preamble lines that locating puts in front. -/
def leadingLines (lines : List Text) : Option (Nat × Nat) → List Text
  | none => []
  | some (first, last) => between lines first last

theorem isPreamble_leadingLines (lines : List Text) (preamble : Option (Nat × Nat)) :
    IsPreamble lines preamble (leadingLines lines preamble) := by
  cases preamble with
  | none => exact rfl
  | some range => exact isPreamble_between lines range.1 range.2

/-- The snippet with these lines and this closing line. -/
def assemble (path : Text) (startLine : Nat) (sentinel : Text) (leading body : List Text)
    (closing : Text) : Snippet :=
  ⟨⟨path, startLine + 1, leading.length, normalizeReturns (leading ++ body)⟩,
    expectationOn sentinel closing⟩

/-- Locating in terms of the index of the closing line ahead. -/
theorem locate_eq (code path : Text) (startLine : Nat) (sentinel : Text)
    (preamble : Option (Nat × Nat)) : locate code path startLine sentinel preamble =
      let ahead := (Text.splitLines code).drop startLine
      let index := ahead.findIdx (closes sentinel)
      match ahead[index]? with
      | none => .error (.snippetNotFound path startLine sentinel)
      | some closing => .ok (assemble path startLine sentinel
          (leadingLines (Text.splitLines code) preamble) (ahead.take index) closing) := by
  have hdrop (ahead : List Text) : ahead.dropWhile (!closes sentinel ·) =
      ahead.drop (ahead.findIdx (closes sentinel)) := by
    simp [List.dropWhile_eq_drop_findIdx_not]
  have htake (ahead : List Text) : ahead.takeWhile (!closes sentinel ·) =
      ahead.take (ahead.findIdx (closes sentinel)) := by
    simp [List.takeWhile_eq_take_findIdx_not]
  simp only [locate, hdrop, htake]
  generalize (Text.splitLines code).drop startLine = ahead
  generalize ahead.findIdx (closes sentinel) = index
  by_cases hindex : index < ahead.length
  · rw [List.drop_eq_getElem_cons hindex, List.getElem?_eq_getElem hindex]
    cases preamble <;> rfl
  · rw [List.drop_eq_nil_of_le (by omega), List.getElem?_eq_none (by omega)]

theorem locate_of_endsAt (path : Text) (preamble : Option (Nat × Nat))
    (h : EndsAt (Text.splitLines code) startLine sentinel i)
    (hfirst : ∀ j < i, ¬ EndsAt (Text.splitLines code) startLine sentinel j) :
    ∃ s, locate code path startLine sentinel preamble = .ok s ∧
      CutAt (Text.splitLines code) path startLine sentinel preamble i s := by
  have hindex := ahead_of_endsAt h hfirst
  obtain ⟨hstart, closing, hclosing, -⟩ := h
  have hi := (List.getElem?_eq_some_iff.mp hclosing).1
  let body := ((Text.splitLines code).drop startLine).take (i - startLine)
  have hahead : ((Text.splitLines code).drop startLine)[i - startLine]? = some closing := by
    rw [List.getElem?_drop, Nat.add_sub_cancel' hstart, hclosing]
  have hlocate : locate code path startLine sentinel preamble = .ok (assemble path startLine sentinel
      (leadingLines (Text.splitLines code) preamble) body closing) := by
    simp only [locate_eq, hindex, hahead, body]
  have hclean (ls : List Text) : List.Forall₂ (Text.Strips noReturnMarker) ls (ls.map dropMarker) := by
    rw [List.forall₂_map_right_iff]
    apply List.forall₂_same.mpr
    intro line _
    exact strips_dropMarker line
  exact ⟨_, hlocate, _, body, _, closing, isPreamble_leadingLines _ _, slice?_of_le hstart hi.le,
    hclosing, rfl, rfl, rfl, hclean _, unreturned_dropLastReturn _, expects_expectationOn _ _⟩

theorem locate_of_none (h : ∀ i, ¬ EndsAt (Text.splitLines code) startLine sentinel i) :
    locate code path startLine sentinel preamble = .error (.snippetNotFound path startLine sentinel) := by
  have hnone : ∀ line ∈ (Text.splitLines code).drop startLine, closes sentinel line = false := by
    intro line hline
    rw [← Bool.not_eq_true]
    intro hcloses
    obtain ⟨j, hj⟩ := List.mem_iff_getElem?.mp hline
    rw [List.getElem?_drop] at hj
    exact h (startLine + j) ⟨Nat.le_add_right _ _, line, hj, closes_iff.mp hcloses⟩
  have hindex := List.findIdx_eq_length.mpr hnone
  simp only [locate_eq, hindex]
  rw [List.getElem?_eq_none (Nat.le_refl _)]

/-- A snippet is located if any line closes it, and it ends at the first one that does. -/
theorem exists_locate (path : Text) (preamble : Option (Nat × Nat))
    (h : EndsAt (Text.splitLines code) startLine sentinel i) :
    ∃ j s, EndsAt (Text.splitLines code) startLine sentinel j ∧
      (∀ k < j, ¬ EndsAt (Text.splitLines code) startLine sentinel k) ∧
      locate code path startLine sentinel preamble = .ok s ∧
      CutAt (Text.splitLines code) path startLine sentinel preamble j s := by
  classical
  have hleast := Nat.find_spec ⟨i, h⟩
  have hfirst {k : Nat} (hk : k < Nat.find ⟨i, h⟩) := Nat.find_min ⟨i, h⟩ hk
  obtain ⟨s, hlocate, hcut⟩ := locate_of_endsAt path preamble hleast fun k hk => hfirst hk
  exact ⟨_, s, hleast, fun k hk => hfirst hk, hlocate, hcut⟩

theorem locate_eq_error_iff : locate code path startLine sentinel preamble =
    .error (.snippetNotFound path startLine sentinel) ↔
      ∀ i, ¬ EndsAt (Text.splitLines code) startLine sentinel i := by
  refine ⟨?_, locate_of_none⟩
  intro herror i hi
  obtain ⟨-, s, -, -, hok, -⟩ := exists_locate path preamble hi
  rw [herror] at hok
  cases hok

/-- What is located ends at the first closing line. -/
theorem cutAt_of_locate (h : locate code path startLine sentinel preamble = .ok s) :
    ∃ i, EndsAt (Text.splitLines code) startLine sentinel i ∧
      (∀ j < i, ¬ EndsAt (Text.splitLines code) startLine sentinel j) ∧
      CutAt (Text.splitLines code) path startLine sentinel preamble i s := by
  by_cases hends : ∃ i, EndsAt (Text.splitLines code) startLine sentinel i
  · obtain ⟨i, hi⟩ := hends
    obtain ⟨j, s', hj, hfirst, hlocate, hcut⟩ := exists_locate path preamble hi
    obtain rfl := Except.ok.inj (h.symm.trans hlocate)
    exact ⟨j, hj, hfirst, hcut⟩
  · rw [locate_of_none (not_exists.mp hends)] at h
    cases h

theorem length_lines_of_locate (h : locate code path startLine sentinel preamble = .ok s) :
    s.fragment.preambleLength ≤ s.fragment.lines.length := by
  simp only [locate_eq] at h
  split at h
  · cases h
  · cases h
    simp [assemble, length_normalizeReturns]

/-! ## No step fails -/

/-- Locating with every step that may fail. -/
def locateStepwise (code path : Text) (startLine : Nat) (sentinel : Text)
    (preamble : Option (Nat × Nat)) : Option (Except Failure Snippet) :=
  let lines := Text.splitLines code
  if lines.length ≤ startLine then some (.error (.snippetNotFound path startLine sentinel))
  else do
    let ahead ← slice? lines startLine lines.length
    match ahead.findIdx? (closes sentinel) with
    | none => some (.error (.snippetNotFound path startLine sentinel))
    | some index =>
      let closing ← ahead[index]?
      let leading ← match preamble with
        | none => some []
        | some (first, last) =>
          let start := min first lines.length
          slice? lines start (max (min (last - 1) lines.length) start)
      let body ← slice? ahead 0 index
      let firstLine ← add? startLine 1
      return .ok ⟨⟨path, firstLine, leading.length, normalizeReturns (leading ++ body)⟩,
        expectationOn sentinel closing⟩

/-- No step fails for a text that fits the memory of a machine with words of 64 bits. -/
theorem locateStepwise_eq (hcode : code.length < 2 ^ 63) :
    locateStepwise code path startLine sentinel preamble =
      some (locate code path startLine sentinel preamble) := by
  have hlines := Text.length_splitLines_le code
  by_cases hstart : (Text.splitLines code).length ≤ startLine
  · have hahead : (Text.splitLines code).drop startLine = [] := List.drop_eq_nil_of_le hstart
    simp [locateStepwise, locate_eq, hstart, hahead]
  · have hslice := slice?_length (Nat.le_of_not_le hstart)
    have hfirst : add? startLine 1 = some (startLine + 1) := add?_of_lt (by omega)
    have hleading (first last : Nat) := isPreamble_between (Text.splitLines code) first last
    simp only [IsPreamble] at hleading
    simp only [locateStepwise, if_neg hstart, hslice, locate_eq, Option.bind_eq_bind, Option.bind_some]
    generalize (Text.splitLines code).drop startLine = ahead
    cases hindex : ahead.findIdx? (closes sentinel) with
    | none =>
        have hnone : ahead.findIdx (closes sentinel) = ahead.length := by
          rw [List.findIdx_eq_length]
          simpa using hindex
        simp [hnone]
    | some index =>
        obtain ⟨hlt, hsame⟩ := List.findIdx?_eq_some_iff_findIdx_eq.mp hindex
        have hbody := slice?_zero hlt.le
        cases preamble with
        | none => simp [hsame, hlt, hbody, hfirst, assemble, leadingLines]
        | some range => simp [hsame, hlt, hbody, hfirst, hleading, assemble, leadingLines]

end Snippet

/-! ## Lines in front -/

namespace Fragment

open Checked (slice? slice?_length add? add?_of_lt)

variable {f : Fragment}

/-- The snippet lines, with the cut that may fail. -/
def bodyStepwise (f : Fragment) : Option (List Text) := slice? f.lines f.preambleLength f.lines.length

/-- Lines put in front, with the sum that may fail. -/
def leadStepwise (f : Fragment) (leading : List Text) : Option Fragment := do
  let preambleLength ← add? f.preambleLength leading.length
  return { f with preambleLength := preambleLength, lines := leading ++ f.lines }

/-- `g` is `f` behind the lines of a chain, the last ones first, and still ends with the body of `f`. -/
structure Behind (chain : List (List Text)) (f g : Fragment) : Prop where
  path : g.path = f.path
  firstLine : g.firstLine = f.firstLine
  lines : g.lines = chain.reverse.flatten ++ f.lines
  preambleLength : g.preambleLength = chain.flatten.length + f.preambleLength
  body : g.bodyStepwise = some f.body
  stepwise : g.lines.length < 2 ^ 64 → chain.foldlM leadStepwise f = some g

theorem behind_self (h : f.preambleLength ≤ f.lines.length) : Behind [] f f where
  path := rfl
  firstLine := rfl
  lines := rfl
  preambleLength := by simp
  body := slice?_length h
  stepwise := fun _ => rfl

theorem Behind.cons {leading : List Text} {chain : List (List Text)} {g : Fragment}
    (h : f.preambleLength ≤ f.lines.length) (hg : Behind chain (f.withLeadingLines leading) g) :
    Behind (leading :: chain) f g where
  path := hg.path
  firstLine := hg.firstLine
  lines := by simp [hg.lines, withLeadingLines]
  preambleLength := by
    have hlength := hg.preambleLength
    simp only [withLeadingLines] at hlength
    simp only [List.flatten_cons, List.length_append]
    omega
  body := by
    have hbody : (f.withLeadingLines leading).body = f.body := by
      simp [Fragment.body, withLeadingLines, Nat.add_comm f.preambleLength, List.drop_append]
    rw [hg.body, hbody]
  stepwise := by
    intro hlength
    have hlines := hg.lines
    have hsum : f.preambleLength + leading.length < 2 ^ 64 := by
      simp only [hlines, withLeadingLines, List.length_append] at hlength
      omega
    have hstep : f.leadStepwise leading = some (f.withLeadingLines leading) := by
      simp [leadStepwise, add?_of_lt hsum, withLeadingLines]
    simp [List.foldlM_cons, hstep, hg.stepwise hlength]

theorem behind_foldl (h : f.preambleLength ≤ f.lines.length) (chain : List (List Text)) :
    Behind chain f (chain.foldl withLeadingLines f) := by
  induction chain generalizing f with
  | nil => exact behind_self h
  | cons leading chain ih =>
      apply Behind.cons h
      apply ih
      simp only [withLeadingLines, List.length_append]
      omega

end Fragment

namespace Snippet

/-- Locating fails exactly when no line from `startLine` on closes the snippet, and otherwise cuts at the
first one that does. No step of it fails, and lines put in front leave the snippet as it was cut. -/
theorem locate_cuts_first (code path : Text) (startLine : Nat) (sentinel : Text)
    (preamble : Option (Nat × Nat)) :
    (locate code path startLine sentinel preamble = .error (.snippetNotFound path startLine sentinel) ↔
      ∀ i, ¬ EndsAt (Text.splitLines code) startLine sentinel i) ∧
    (∀ i, EndsAt (Text.splitLines code) startLine sentinel i →
      (∀ j < i, ¬ EndsAt (Text.splitLines code) startLine sentinel j) →
      ∃ s, locate code path startLine sentinel preamble = .ok s ∧
        CutAt (Text.splitLines code) path startLine sentinel preamble i s ∧
        ∀ chain, Fragment.Behind chain s.fragment
          (chain.foldl Fragment.withLeadingLines s.fragment)) ∧
    (code.length < 2 ^ 63 → locateStepwise code path startLine sentinel preamble =
      some (locate code path startLine sentinel preamble)) := by
  refine ⟨locate_eq_error_iff, ?_, locateStepwise_eq⟩
  intro i hi hfirst
  obtain ⟨s, hlocate, hcut⟩ := locate_of_endsAt path preamble hi hfirst
  exact ⟨s, hlocate, hcut, Fragment.behind_foldl (length_lines_of_locate hlocate)⟩

private def markedCode : Text := "struct A\nlet a\ncall\nif a return /* noreturn */\n  return a \nend: 7"

theorem locate_cuts_first_marked :
    ∃ s, locate markedCode "A.swift" 3 "end" (some (0, 3)) = .ok s ∧
      CutAt (Text.splitLines markedCode) "A.swift" 3 "end" (some (0, 3)) 5 s ∧
      locateStepwise markedCode "A.swift" 3 "end" (some (0, 3)) = some (.ok s) := by
  have hlines : Text.splitLines markedCode = ["struct A".toList, "let a".toList, "call".toList,
    "if a return /* noreturn */".toList, "  return a ".toList, "end: 7".toList] := by decide
  have hends : EndsAt (Text.splitLines markedCode) 3 "end" 5 := by
    rw [hlines]
    exact ⟨by decide, _, rfl, by decide⟩
  have hfirst : ∀ j < 5, ¬ EndsAt (Text.splitLines markedCode) 3 "end" j := by
    rw [hlines]
    intro j hj ⟨hstart, line, hline, hcloses⟩
    obtain rfl | rfl : j = 3 ∨ j = 4 := by omega
    · obtain rfl := Option.some.inj hline
      exact absurd hcloses (by decide)
    · obtain rfl := Option.some.inj hline
      exact absurd hcloses (by decide)
  obtain ⟨-, hcut, hsteps⟩ := locate_cuts_first markedCode "A.swift" 3 "end" (some (0, 3))
  obtain ⟨s, hlocate, hs, -⟩ := hcut 5 hends hfirst
  exact ⟨s, hlocate, hs, by rw [hsteps (by decide), hlocate]⟩

end Snippet

end Crosscheck
