import Crosscheck.Artifact
import Crosscheck.Proofs.Patch.Removal
/-!
# Marking tests

Marking goes over a text once. The mark stands in the place of `open`, and whatever the name of a test goes on
with is part of a word, so the marked text has no test left to be marked, and no modifier that was not in
the text before.
-/

namespace Crosscheck.Artifact

open Pattern PatchRule Text

variable {c d : Cursor} {m : Match} {w : Text}

/-- What a test function is marked with, in the place of what opens it. -/
def mark (m : Match) : Text := Template.expand openTest m "@Test fun $1"

/-! ## What the pattern finds -/

/-- A test function has the word and a name, and the name is kept. -/
theorem openTest_text (h : openTest.matchAt? c = some (m, d)) : ∃ name, (∀ ch ∈ name, isWord ch) ∧
    c.Leads ("open fun test".toList ++ name) d ∧ mark m = "@Test fun test".toList ++ name := by
  obtain ⟨g, ⟨_, _, ⟨-, rfl, rfl⟩, e, _, hopened, _, ⟨x, _, htested, hrun⟩, rfl⟩, rfl⟩ :=
    Regex.matches_of_matchAt? h
  obtain ⟨hopen, rfl⟩ := matches_literal.mp hopened
  obtain ⟨htest, rfl⟩ := matches_literal.mp htested
  obtain ⟨⟨name, hall, hname⟩, -⟩ := matches_star_set.mp hrun
  have hwhole := htest.append hname
  refine ⟨name, hall, hopen.append hwhole, ?_⟩
  have hpieces : Template.pieces "@Test fun $1" =
      ("@Test fun ".toList.map fun ch => .text [ch]) ++ [.number 1] := by decide
  rw [mark, Template.expand, hpieces, hwhole.textTo]
  simp [Template.Piece.expand, Match.group?, List.lookup_cons]

theorem consuming_openTest : openTest.Consuming := by
  intro c m d h
  obtain ⟨name, -, hlead, -⟩ := openTest_text h
  have hoffset := hlead.offset
  rw [List.length_append] at hoffset
  have hopen : "open fun test".toList.length = 13 := rfl
  omega

/-- A test function is found wherever it is no part of a word. -/
theorem matchAt?_openTest (hedge : EndsNoWord c.previous) (h : "open fun test".toList <+: c.rest) :
    openTest.matchAt? c ≠ none := by
  obtain ⟨rest, hrest⟩ := h
  obtain ⟨e, hopen, he⟩ := Cursor.exists_leads (u := "open fun ".toList) hrest.symm
  obtain ⟨x, htest, -⟩ := Cursor.exists_leads (u := "test".toList) he
  have hedge' := (holds_wordEdge 'o' (by decide) (by rw [← hrest]; rfl)).mpr hedge
  rw [Option.ne_none_iff_isSome]
  refine Regex.matchAt?_isSome (d := x) ⟨c, [], ⟨hedge', rfl, rfl⟩, e, [],
    matches_literal.mpr ⟨hopen, rfl⟩, [], ⟨x, [], matches_literal.mpr ⟨htest, rfl⟩, ?_⟩, rfl⟩
  exact matches_star_set.mpr ⟨⟨[], by simp, .refl x⟩, rfl⟩

/-! ## What marking leaves -/

/-- A word that has no part in the marks and is no part of another word stands behind a mark and the name after
it, if it does not begin before them. -/
private theorem behind_mark {name n q r : Text} {ch : Char} {previous : Option Char}
    (hch : ch ∉ "@Test fun test".toList) (hname : ∀ ch ∈ name, isWord ch) (hw : w.head? = some ch)
    (hedge : EndsNoWord (n.getLast?.or previous))
    (h : "@Test fun test".toList ++ (name ++ r) = n ++ (w ++ q)) :
    ∃ k, n = "@Test fun test".toList ++ (name ++ k) ∧ r = k ++ (w ++ q) := by
  obtain ⟨w, rfl⟩ := List.head?_eq_some_iff.mp hw
  rcases List.append_eq_append_iff.mp h with ⟨k, rfl, hk⟩ | ⟨k, hmark, hk⟩
  · rcases List.append_eq_append_iff.mp hk with ⟨j, rfl, hj⟩ | ⟨j, rfl, hj⟩
    · exact ⟨j, rfl, hj⟩
    · cases j with
      | nil => exact ⟨[], by simp, hj.symm⟩
      | cons d j =>
          -- the word begins within the name, behind a letter
          have hletter : (("@Test fun test".toList ++ k).getLast?.or previous).any isWord := by
            cases k using List.reverseRecOn with
            | nil => rfl
            | append_singleton k d' =>
                rw [← List.append_assoc, List.getLast?_concat]
                exact hname d' (by simp)
          rw [EndsNoWord, hletter] at hedge
          cases hedge
  · cases k with
    | nil =>
        rw [List.append_nil] at hmark
        rw [← hmark] at hedge
        cases hedge
    | cons d k =>
        obtain ⟨rfl, -⟩ := List.cons.inj hk
        exact absurd (by simp [hmark]) hch

/-- A place in a marked text where a word stands that begins with a letter and has no part in the marks is
a place in the text, and no test function is found there. -/
theorem exists_unmarked {word : Text → Prop} {ch : Char} (hch : ch ∉ "@Test fun test".toList)
    (hword : ∀ {w}, word w → w.head? = some ch ∧ '@' ∉ w)
    (h : Stands EndsNoWord word c.previous (openTest.rewriteAt mark c)) :
    ∃ u x w, c.Leads u x ∧ openTest.matchAt? x = none ∧ EndsNoWord x.previous ∧ word w ∧ w <+: x.rest := by
  induction c using consuming_openTest.walk_induction with
  | absent c hfind =>
      rw [Regex.rewriteAt_of_find?_none hfind] at h
      obtain ⟨p, w, q, hrest, hw, hedge⟩ := h
      obtain ⟨x, hx, hafter⟩ := Cursor.exists_leads hrest
      refine ⟨p, x, w, hx, ?_, hx.previous ▸ hedge, hw, q, hafter.symm⟩
      by_contra hmatch
      exact Regex.find?_ne_none hx hmatch hfind
  | @found c u e m d hfirst ih =>
      have hu := hfirst.before
      obtain ⟨name, hname, hv, hmark⟩ := openTest_text hfirst.matched
      obtain ⟨p, w, q, hplace, hw, hedge⟩ := h
      rw [hfirst.rewriteAt consuming_openTest, hmark] at hplace
      obtain ⟨hhead, hat⟩ := hword hw
      rcases List.append_eq_append_iff.mp hplace with ⟨k, hp, hafter⟩ | ⟨k, hbefore, hafter⟩
      · -- The word stands behind the mark, where the walk goes on.
        rw [List.append_assoc] at hafter
        rw [hp, List.getLast?_append, Option.or_assoc, ← hu.previous] at hedge
        obtain ⟨k, rfl, hrest⟩ := behind_mark hch hname hhead hedge hafter
        have hlast : EndsNoWord (k.getLast?.or d.previous) := by
          rw [List.getLast?_append, List.getLast?_append, Option.or_assoc, Option.or_assoc] at hedge
          rw [hv.previous, List.getLast?_append, Option.or_assoc]
          exact hedge
        obtain ⟨v, x, w', hx, hfree, hrest'⟩ := ih ⟨k, w, q, hrest, hw, hlast⟩
        exact ⟨_, x, w', (hu.append hv).append hx, hfree, hrest'⟩
      · -- The word stands before the mark, so no test function is found at its place.
        have havoids : w.Avoids "@Test fun test".toList := .of_head rfl hat
        obtain ⟨k, rfl⟩ := havoids.before (by simpa only [List.append_assoc] using hafter)
        obtain ⟨x, hx, hlater⟩ := Cursor.leads_append.mp (hbefore ▸ hu)
        refine ⟨p, x, w, hx, hfirst.none_before hx ?_, hx.previous ▸ hedge, hw, k ++ e.rest, ?_⟩
        · have hletter := List.length_pos_of_mem (List.mem_of_head? hhead)
          rw [hbefore, List.length_append, List.length_append]
          omega
        · rw [hlater.rest, List.append_assoc]

/-! ## The marked text -/

theorem markTests_eq (s : Text) : markTests s =
    openTest.rewriteAt mark (Cursor.start (internalFunction.replaceAll "fun " s)) :=
  Regex.replaceAll_eq_rewriteAt consuming_openTest _ _

/-- No modifier is left on a function, or brought about by a mark. -/
theorem not_stands_modified_markTests (s : Text) : ¬ Stands EndsNoWord IsModified none (markTests s) := by
  rw [markTests_eq]
  intro h
  have hword {w : Text} (hw : IsModified w) : w.head? = some 'i' ∧ '@' ∉ w := by
    refine ⟨?_, fun hat => absurd (hw.mem hat) (by decide)⟩
    obtain ⟨rest, rfl⟩ := hw.begins
    rfl
  obtain ⟨u, x, w, hx, -, hedge, hw, q, hrest⟩ := exists_unmarked (by decide) hword h
  refine not_stands_replaceAll s ⟨u, w, q, ?_, hw, hx.previous ▸ hedge⟩
  rw [hrest, ← hx.rest]
  rfl

/-- No test function is left unmarked. -/
theorem not_stands_test_markTests (s : Text) :
    ¬ Stands EndsNoWord (· = "open fun test".toList) none (markTests s) := by
  rw [markTests_eq]
  intro h
  have hword {w : Text} (hw : w = "open fun test".toList) : w.head? = some 'o' ∧ '@' ∉ w := by
    subst hw
    decide
  obtain ⟨u, x, w, hx, hfree, hedge, rfl, hrest⟩ := exists_unmarked (by decide) hword h
  exact matchAt?_openTest hedge hrest hfree

theorem markTests_of_removes {s t : Text} (h : Relation.ReflTransGen (Removes none) s t) :
    markTests t = markTests s := by
  rw [markTests, markTests, replaceAll_of_removes h]

end Crosscheck.Artifact
