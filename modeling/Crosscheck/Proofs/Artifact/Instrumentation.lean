import Crosscheck.Pattern.Reader
import Crosscheck.Proofs.Artifact.TestMarks
/-!
# What a test artifact consists of

A text is made into a test class by marking its tests and adding two parts: the runner's header before the first
class, and the assertion functions at the end. Nothing that marking takes out is left in the marked text,
and nothing of it comes back with the parts, within them or where they meet the text.
-/

namespace Crosscheck

namespace Artifact

open Pattern PatchRule Relation Text

variable {s t : Text} {word : Text → Prop} {key : Text}

/-! ## Nothing to be found -/

/-- The pattern that a text spells matches nowhere in another text. -/
def NoMatch (written s : Text) : Prop := ∃ r, (Regex.read written).toOption = some r ∧ r.Absent s

/-- The modifier on a function, as a pattern is written. -/
def modifierPattern : Text := "\\binternal[ \\t]+fun "

/-- A test function that is not marked. -/
def testPattern : Text := "\\bopen fun test"

theorem noMatch_modifierPattern (h : ¬ Stands EndsNoWord IsModified none s) : NoMatch modifierPattern s := by
  refine ⟨⟨chain ([wordEdge] ++ ("internal".toList.map .char ++ ([plus spaceOrTab] ++
    "fun ".toList.map .char))), []⟩, by decide +kernel, ?_⟩
  intro u c d g hu hmatch
  obtain ⟨e, i, hedge, hmatch⟩ := (chain_append _ _).mp hmatch
  obtain ⟨x, j, hletters, hmatch⟩ := (chain_append _ _).mp hmatch
  obtain ⟨y, k, hblanks, hfun⟩ := (chain_append _ _).mp hmatch
  obtain ⟨⟨hbefore, v, hv, hlead⟩, -⟩ := matches_modifier.mp ⟨e, i, hedge, x, j, hletters, hblanks⟩
  obtain ⟨hfun, -⟩ := matches_literal.mp hfun
  refine h ⟨u, v ++ "fun ".toList, d.rest, ?_, ⟨v, hv, rfl⟩, hu.previous ▸ hbefore⟩
  exact ((hu.append (hlead.append hfun)).rest).trans (by rw [List.append_assoc])

theorem noMatch_testPattern (h : ¬ Stands EndsNoWord (· = "open fun test".toList) none s) :
    NoMatch testPattern s := by
  refine ⟨⟨chain ([wordEdge] ++ "open fun test".toList.map .char), []⟩, by decide +kernel, ?_⟩
  intro u c d g hu hmatch
  obtain ⟨_, _, ⟨hedge, rfl, rfl⟩, hmatch⟩ := (chain_append _ _).mp hmatch
  obtain ⟨hlead, -⟩ := matches_literal.mp hmatch
  have hbefore := (holds_wordEdge 'o' (by decide) (by rw [hlead.rest]; rfl)).mp hedge
  exact h ⟨u, _, d.rest, by rw [← hlead.rest, ← hu.rest]; rfl, rfl, hu.previous ▸ hbefore⟩

/-! ## Where the header goes -/

/-- A text with `lead` put immediately before the first occurrence of `part`, or the text itself if there is
none. -/
inductive Inserted (part lead : Text) : Text → Text → Prop
  | absent {t : Text} (h : ¬ part <:+: t) : Inserted part lead t t
  | first {p q : Text} (hfirst : ∀ p' q', p ++ (part ++ q) = p' ++ (part ++ q') → p.length ≤ p'.length) :
      Inserted part lead (p ++ (part ++ q)) (p ++ (lead ++ (part ++ q)))

theorem inserted_insertBeforeFirst {part : Text} (hpart : part ≠ []) (lead t : Text) :
    Inserted part lead t (insertBeforeFirst part lead t) := by
  induction t with
  | nil =>
      rw [insertBeforeFirst, if_neg (by simpa using hpart)]
      exact .absent fun h => hpart (List.infix_nil.mp h)
  | cons c t ih =>
      rw [insertBeforeFirst]
      by_cases hlead : part <+: c :: t
      · rw [if_pos (List.isPrefixOf_iff_prefix.mpr hlead)]
        obtain ⟨q, hq⟩ := hlead
        rw [← hq]
        exact .first (p := []) fun _ _ _ => Nat.zero_le _
      · rw [if_neg (mt List.isPrefixOf_iff_prefix.mp hlead)]
        generalize insertBeforeFirst part lead t = t' at ih
        cases ih with
        | absent h => exact .absent fun hin => (List.infix_cons_iff.mp hin).elim hlead h
        | @first p q hfirst =>
            refine .first (p := c :: p) fun p' q' heq => ?_
            cases p' with
            | nil => exact absurd ⟨q', heq.symm⟩ hlead
            | cons d p' => exact Nat.succ_le_succ (hfirst p' q' (List.cons.inj heq).2)

/-! ## What the parts bring with them -/

/-- Neither a modifier nor an unmarked test begins in a line. -/
def Bare (line : Text) : Prop :=
  occursIn "internal" line = false ∧ occursIn "open fun test" line = false

instance : DecidablePred Bare := fun _ => inferInstanceAs (Decidable (_ ∧ _))

theorem forall_mem_literal {P : Text → Prop} {line : Text} {ls : List String} (h : P line)
    (hls : ∀ l ∈ ls, P l.toList) : ∀ l ∈ String.ofList line :: ls, P l.toList := by
  rw [List.forall_mem_cons, String.toList_ofList]
  exact ⟨h, hls⟩

theorem exists_header_lines : ∃ ls, runnerHeader = ofLines ls ∧ ∀ l ∈ ls, Bare l.toList := by
  refine ⟨_, rfl, ?_⟩
  repeat refine forall_mem_literal (by decide +kernel) ?_
  exact List.forall_mem_nil _

theorem exists_shim_lines : ∃ ls, assertionShim = ofLines ls ∧ ∀ l ∈ ls, Bare l.toList := by
  refine ⟨_, rfl, ?_⟩
  repeat refine forall_mem_literal (by decide +kernel) ?_
  exact List.forall_mem_nil _

/-- Words that begin with the key, and that are not in a part or go over the start or the end of one. -/
structure Apart (key : Text) (word : Text → Prop) : Prop where
  key_ne_nil : key ≠ []
  lead : ∀ {w}, word w → key <+: w
  line : ∀ {w}, word w → '\n' ∉ w
  imports : ∀ {w}, word w → w.Avoids "import".toList ∧ Avoids "import".toList w
  classes : ∀ {w q}, word w → ¬ w <+: classLead ++ q
  bare : ∀ {line}, Bare line → occursIn key line = false

theorem apart_modified : Apart "internal".toList IsModified where
  key_ne_nil := by decide
  lead := IsModified.begins
  line := fun hw hmem => absurd (hw.mem hmem) (by decide)
  imports := by
    intro w hw
    have hm : 'm' ∉ w := fun hmem => absurd (hw.mem hmem) (by decide)
    have havoids : Avoids "import".toList "internal".toList := by decide
    exact ⟨.of_last hw.getLast? (by decide) (by decide : 'm' ∈ "import".toList) hm,
      havoids.of_prefix hw.begins⟩
  classes := by
    -- The word would go on with the `c` of `class`, or be over before its function.
    intro w q hw hprefix
    have hc : 'c' ∉ w := fun hmem => absurd (hw.mem hmem) (by decide)
    have hf : 'f' ∈ w := by
      obtain ⟨v, -, rfl⟩ := hw
      exact List.mem_append_right v (by decide)
    have hclass : "internal c".toList <+: classLead ++ q := ⟨"lass".toList ++ q, rfl⟩
    rcases List.prefix_or_prefix_of_prefix hprefix hclass with hshort | hlong
    · exact absurd (hshort.mem hf) (by decide)
    · exact hc (hlong.mem (by decide))
  bare := And.left

theorem apart_test : Apart "open fun test".toList (· = "open fun test".toList) where
  key_ne_nil := by decide
  lead := by
    rintro w rfl
    exact List.prefix_rfl
  line := by
    rintro w rfl
    decide
  imports := by
    rintro w rfl
    decide
  classes := by
    rintro w q rfl hprefix
    obtain ⟨h, -⟩ := List.cons_prefix_cons.mp hprefix
    exact absurd h (by decide)
  bare := And.right

/-- There is no word in lines that are bare. -/
theorem Apart.not_stands_ofLines (hword : Apart key word) {ls : List String} (hls : ∀ l ∈ ls, Bare l.toList)
    (previous : Option Char) : ¬ Stands EndsNoWord word previous (ofLines ls) := by
  have hbare {line : Text} {previous : Option Char} (hline : occursIn key line = false) :
      ¬ Stands EndsNoWord word previous line := by
    rintro ⟨p, w, q, rfl, hw, -⟩
    obtain ⟨rest, rfl⟩ := hword.lead hw
    have hoccurs : occursIn key (p ++ ((key ++ rest) ++ q)) := occursIn_iff.mpr ⟨p, rest ++ q, by simp⟩
    rw [hline] at hoccurs
    cases hoccurs
  induction ls generalizing previous with
  | nil =>
      have hempty : occursIn key [] = false := by simpa [occursIn] using hword.key_ne_nil
      exact hbare hempty
  | cons l ls ih =>
      rw [List.forall_mem_cons] at hls
      cases ls with
      | nil => exact hbare (hword.bare hls.1)
      | cons l' ls =>
          intro h
          have hcut : ofLines (l :: l' :: ls) = l.toList ++ '\n' :: ofLines (l' :: ls) := by
            simp [ofLines, joinLines, join]
          rw [hcut] at h
          rcases Stands.of_newline hword.line h with hfirst | hrest
          · exact hbare (hword.bare hls.1) hfirst
          · exact ih hls.2 _ hrest

/-- The header begins with an import and ends with a line end. -/
theorem exists_header : ∃ rest, runnerHeader = "import".toList ++ (rest ++ ['\n']) :=
  ⟨(runnerHeader.drop 6).dropLast, by decide +kernel⟩

/-- No word comes about by the header. -/
theorem Apart.not_stands_inserted (hword : Apart key word) (ht : ¬ Stands EndsNoWord word none t)
    (h : Inserted classLead runnerHeader t s) : ¬ Stands EndsNoWord word none s := by
  cases h with
  | absent => exact ht
  | @first p q =>
      obtain ⟨header, hheader⟩ := exists_header
      rintro ⟨u, w, r, hplace, hw, hedge⟩
      obtain ⟨hafter, hbefore⟩ := hword.imports hw
      rw [hheader, List.append_assoc] at hplace
      rcases hafter.beside hbefore hplace.symm with ⟨k, rfl⟩ | ⟨k, rfl, hrest⟩
      · exact ht ⟨u, w, k ++ (classLead ++ q), by simp only [List.append_assoc], hw, hedge⟩
      · -- The word begins behind the first letters of the header, so it is in the header or behind it.
        have hrest' : header ++ '\n' :: (classLead ++ q) = k ++ (w ++ r) := by simpa using hrest
        rw [List.getLast?_append, List.getLast?_append, Option.or_assoc, Option.or_assoc] at hedge
        rcases Stands.of_newline hword.line ⟨k, w, r, hrest', hw, hedge⟩ with hinside | hclass
        · obtain ⟨ls, hls, hbare⟩ := exists_header_lines
          have hstands := hinside.within "import".toList ['\n']
          rw [← hheader, hls] at hstands
          exact hword.not_stands_ofLines hbare _ hstands
        · obtain ⟨u, w, r, hplace, hw, hedge⟩ := hclass
          cases u with
          | nil => exact hword.classes hw ⟨r, hplace.symm⟩
          | cons ch u =>
              refine ht ⟨p ++ ch :: u, w, r, ?_, hw, ?_⟩
              · rw [hplace, List.append_assoc]
              · rw [List.getLast?_cons, Option.some_or] at hedge
                rwa [List.getLast?_append, Option.or_assoc, List.getLast?_cons, Option.some_or]

/-- No word comes about by the assertion functions, which two newlines set off. -/
theorem Apart.not_stands_shim (hword : Apart key word) (hs : ¬ Stands EndsNoWord word none s) :
    ¬ Stands EndsNoWord word none (s ++ "\n\n" ++ assertionShim) := by
  intro h
  obtain ⟨ls, hls, hbare⟩ := exists_shim_lines
  have hplace : s ++ "\n\n" ++ assertionShim = s ++ '\n' :: ([] ++ '\n' :: ofLines ls) := by simp [hls]
  rw [hplace] at h
  rcases Stands.of_newline hword.line h with hbefore | hafter
  · exact hs hbefore
  · rcases Stands.of_newline hword.line hafter with hempty | hshim
    · have hnone : ∀ l ∈ ([] : List String), Bare l.toList := List.forall_mem_nil _
      exact hword.not_stands_ofLines hnone _ hempty
    · exact hword.not_stands_ofLines hbare _ hshim

/-! ## The artifact -/

/-- Whatever text a test artifact is made from, neither a modifier on a function nor an unmarked test is
found in the marked text or in the artifact. The artifact is the marked text with the header before its first
class and the assertion functions at its end. It is the same whichever modifiers were taken off before,
and the rule for them is one way to take them all off. -/
theorem compose_test_artifact (wholeFile : Bool) (s : Text) :
    NoMatch modifierPattern
      (openTest.replaceAll "@Test fun $1" (internalFunction.replaceAll "fun " s)) ∧
    NoMatch testPattern (openTest.replaceAll "@Test fun $1" (internalFunction.replaceAll "fun " s)) ∧
    (∃ body, Inserted classLead runnerHeader
        (openTest.replaceAll "@Test fun $1" (internalFunction.replaceAll "fun " s)) body ∧
      compose ⟨true, none, wholeFile⟩ s = body ++ "\n\n" ++ assertionShim) ∧
    NoMatch modifierPattern (compose ⟨true, none, wholeFile⟩ s) ∧
    NoMatch testPattern (compose ⟨true, none, wholeFile⟩ s) ∧
    (∀ t, ReflTransGen (Removes none) s t →
      compose ⟨true, none, wholeFile⟩ t = compose ⟨true, none, wholeFile⟩ s) ∧
    ReflTransGen (Removes none) s (internalFunction.replaceAll "fun " s) ∧
    NoMatch modifierPattern (internalFunction.replaceAll "fun " s) := by
  have hclass : classLead ≠ [] := by decide
  have hinserted := inserted_insertBeforeFirst hclass runnerHeader (markTests s)
  have hcompose (t : Text) : compose ⟨true, none, wholeFile⟩ t = instrument t := rfl
  have hmodified := not_stands_modified_markTests s
  have htest := not_stands_test_markTests s
  refine ⟨noMatch_modifierPattern hmodified, noMatch_testPattern htest, ⟨_, hinserted, rfl⟩, ?_, ?_, ?_,
    removes_replaceAll s, noMatch_modifierPattern (not_stands_replaceAll s)⟩
  · have hbody := apart_modified.not_stands_inserted hmodified hinserted
    exact noMatch_modifierPattern (apart_modified.not_stands_shim hbody)
  · have hbody := apart_test.not_stands_inserted htest hinserted
    exact noMatch_testPattern (apart_test.not_stands_shim hbody)
  · intro t ht
    rw [hcompose, hcompose, instrument, instrument, markTests_of_removes ht]

end Artifact

end Crosscheck
