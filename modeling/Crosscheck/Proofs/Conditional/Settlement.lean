import Crosscheck.Proofs.Conditional.Resolution
import Mathlib.Data.List.Forall2
import Mathlib.Logic.Function.Iterate
/-!
# From passes to the value

A resolver repeats its pass until no block is found. As many passes as there are blocks lead to the value
of a document, and the length of its text bounds the number of blocks. The resolvers of literal tags and
of the tags recognized by default are of the kind that this is about.
-/

namespace Crosscheck

namespace Document

variable {names : List Text} {branch : Branch} {d : Document}

theorem pass_of_not_ready (h : d.isReady names = false) : d.pass names branch = d := by
  induction d with
  | done => rfl
  | line s rest ih => exact congrArg (Document.line s) (ih h)
  | single o body c rest ihb ihr =>
      simp only [isReady, Bool.or_eq_false_iff] at h
      rw [pass, ihb h.1.2, ihr h.2, h.1.1]
      rfl
  | double o p m a c rest ihp iha ihr =>
      simp only [isReady, Bool.or_eq_false_iff] at h
      rw [pass, ihp h.1.1.2, iha h.1.2, ihr h.2, h.1.1.1]
      rfl

/-- As many passes as there are blocks lead to the value. -/
theorem iterate_pass {n : Nat} (h : d.blocks ≤ n) :
    (pass names branch)^[n] d = d.eval names branch := by
  induction n generalizing d with
  | zero =>
      have hready : d.isReady names = false := by
        by_contra hd
        rw [Bool.not_eq_false] at hd
        have := blocks_pass_lt branch hd
        omega
      exact (eval_of_not_ready hready).symm
  | succ n ih =>
      by_cases hd : d.isReady names
      · have := blocks_pass_lt branch hd
        rw [Function.iterate_succ_apply, ih (by omega), eval_pass]
      · rw [Bool.not_eq_true] at hd
        rw [Function.iterate_fixed (pass_of_not_ready hd), eval_of_not_ready hd]

theorem blocks_le_length : d.blocks ≤ d.text.length := by
  induction d with
  | done => exact Nat.le_refl 0
  | line s rest ih =>
      simp only [blocks, text, List.length_cons, List.length_append]
      omega
  | single o body c rest ihb ihr =>
      simp only [blocks, text, List.length_cons, List.length_append]
      omega
  | double o p m a c rest ihp iha ihr =>
      simp only [blocks, text, List.length_cons, List.length_append]
      omega

end Document

/-! ## Passes over a text -/

namespace Resolver

/-- One pass over a text, also where no block matches. -/
def sweep (r : Resolver) (s : Text) : Text := r.block.rewriteAt r.replacement (Cursor.start s)

variable {r : Resolver} {names : List Text} {s t : Text}

/-- A pass that finds nothing would not change the text. -/
theorem pass?_eq (hr : r.block.Consuming) (s : Text) :
    r.pass? s = some (r.sweep s) ∨ r.pass? s = none ∧ r.sweep s = s := by
  have hedits : r.edits s = (r.block.allMatches s).map (Regex.editOf r.replacement) := rfl
  have happly := Regex.applyAll_allMatches hr r.replacement s
  rw [pass?, hedits]
  split
  · next hnone =>
    have hkeep : Edit.applyAll [] s = s := by simp [Edit.applyAll]
    rw [hnone, hkeep] at happly
    exact .inr ⟨rfl, happly.symm⟩
  · next e es hsome =>
    rw [hsome] at happly
    exact .inl (congrArg some happly)

theorem settle_eq_iterate (hr : r.block.Consuming) (n : Nat) (s : Text) :
    r.settle n s = r.sweep^[n] s := by
  induction n generalizing s with
  | zero => rfl
  | succ n ih =>
      rw [settle]
      rcases pass?_eq hr s with hsome | ⟨hnone, hfixed⟩
      · rw [hsome, Function.iterate_succ_apply]
        exact ih _
      · rw [hnone, Function.iterate_fixed hfixed]

namespace Recognizes

open Block Document

/-- No block starts in the first line of a text if that line has no number sign. -/
theorem matchAt?_first (hr : r.Recognizes names) (first : PlainLine) (hs : EndsLine s)
    (hne : first.text ≠ []) : r.block.matchAt? (Cursor.start (first.text ++ s)) = none := by
  refine hr.matchAt?_eq_none fun l d hfit hl => ?_
  have hrest : first.text ++ s = l.text ++ d.rest := hl.rest
  rcases hfit.lead with ⟨hlead, -⟩ | hlead
  · have htext : l.lead ++ (first.text ++ s) = l.text ++ d.rest := by
      rw [hlead, List.nil_append, hrest]
    obtain ⟨hopen, -⟩ := Layout.cut_line hr.single hfit.condition first.single hs htext
    exact absurd first.unmarked (by simp [hopen])
  · obtain ⟨ch, u, hu⟩ := List.exists_cons_of_ne_nil hne
    rw [hu, Layout.text, hlead] at hrest
    obtain ⟨rfl, -⟩ := List.cons.inj hrest
    exact absurd first.single (by simp [hu])

theorem sweep_first (hr : r.Recognizes names) (first : PlainLine) (hs : EndsLine s)
    (h : r.Yields s t) : r.sweep (first.text ++ s) = first.text ++ t := by
  have hnone := hr.matchAt?_first first hs
  have hsingle := first.single
  cases hfirst : first.text with
  | nil =>
      rcases hs with rfl | ⟨u, rfl⟩
      · have hend := h ⟨some ' ', 0, []⟩ (by intro hc; cases hc) rfl
        rw [Regex.rewriteAt_nil rfl] at hend
        rw [List.append_nil, sweep, Regex.rewriteAt_nil rfl, ← hend]
        rfl
      · exact h _ (fun _ => ⟨u, rfl⟩) rfl
  | cons ch u =>
      rw [hfirst] at hnone hsingle
      rw [sweep, Regex.rewriteAt_none rfl (hnone (List.cons_ne_nil ch u))]
      have hword := hr.yields_word (List.not_mem_of_not_mem_cons hsingle) h
      exact congrArg (ch :: ·) (hword _ (by intro hc; cases hc) rfl)

theorem sweep_document (hr : r.Recognizes names) (first : PlainLine) (d : Document) :
    r.sweep (first.text ++ d.text) = first.text ++ (d.pass names r.branch).text := by
  have hyields := hr.yields_pass d (.inl rfl) yields_nil
  rw [List.append_nil, List.append_nil] at hyields
  refine hr.sweep_first first ?_ hyields
  simpa using endsLine_text d (.inl rfl : EndsLine [])

theorem iterate_sweep (hr : r.Recognizes names) (first : PlainLine) (d : Document) (n : Nat) :
    r.sweep^[n] (first.text ++ d.text) = first.text ++ ((pass names r.branch)^[n] d).text := by
  induction n generalizing d with
  | zero => rfl
  | succ n ih => 
      rw [Function.iterate_succ_apply, hr.sweep_document, ih, Function.iterate_succ_apply]

theorem resolve_eq (hr : r.Recognizes names) (first : PlainLine) (d : Document) :
    r.resolve (first.text ++ d.text) = first.text ++ (d.eval names r.branch).text := by
  have hblocks := d.blocks_le_length
  rw [resolve, settle_eq_iterate hr.consuming, hr.iterate_sweep, iterate_pass]
  rw [List.length_append]
  omega

end Recognizes

end Resolver

/-! ## Which tags name their targets -/

/-- The tag is recognized by the name and nothing else, and nests no deeper than a group. -/
def Tag.Spells (tag : Tag) (name : Text) : Prop :=
  ∃ p, tag.pattern? = some (p, []) ∧ p.depth ≤ 2 ∧ p.value = Pattern.literal name

private theorem depthOf_le {bound : Nat} {ds : List Nat} (h : ∀ d ∈ ds, d ≤ bound) :
    Pattern.Nested.depthOf ds ≤ bound + 1 := by
  cases ds with
  | nil => exact Nat.zero_le _
  | cons d ds =>
      rw [List.forall_mem_cons] at h
      cases ds with
      | nil => exact Nat.le_succ_of_le h.1
      | cons e ds =>
          refine Nat.succ_le_succ ?_
          exact List.foldlRecOn (motive := fun m => m ≤ bound) (e :: ds) max h.1
            fun m hm n hn => Nat.max_le.mpr ⟨hm, h.2 n hn⟩

theorem Tag.spells_literal (name : Text) : (Tag.literal name).Spells name := by
  refine ⟨_, rfl, ?_, rfl⟩
  exact Nat.le_succ_of_le (depthOf_le (List.forall_mem_map.mpr fun _ _ => Nat.le_refl 0))

/-- The names that the default tags stand for. -/
def Tag.defaultNames : List Text := ["SKIP", "KOTLIN", "os(Android)"]

theorem Tag.spells_default : List.Forall₂ Tag.Spells Tag.defaultSet Tag.defaultNames := by
  have hwritten : Tag.pattern? (.pattern "os\\(Android\\)") =
      some (⟨Pattern.literal "os(Android)", 2⟩, []) := by decide +kernel
  exact .cons (spells_literal _) (.cons (spells_literal _)
    (.cons ⟨_, hwritten, Nat.le_refl 2, rfl⟩ .nil))

theorem Tag.defaultNames_free : ∀ n ∈ Tag.defaultNames, '#' ∉ n := by decide

namespace Block

open Pattern

theorem ungrouped_literal (s : Text) : (literal s).ungrouped = literal s := by
  unfold literal
  induction s with
  | nil => rfl
  | cons ch s ih =>
      cases s with
      | nil => rfl
      | cons ch' s => exact congrArg (Pattern.seq (.char ch)) ih

/-- Any of the names. -/
def anyOf (names : List Text) : Pattern :=
  if names.isEmpty then never else choice (names.map literal)

theorem spells_anyOf (names : List Text) : Spells (anyOf names) names := by
  intro c d g h
  cases names with
  | nil => simp [anyOf, not_matches_never]
  | cons n names =>
      rw [anyOf, List.isEmpty_cons, if_neg Bool.false_ne_true, matches_choice (by simp)]
      constructor
      · intro ⟨p, hp, hm⟩
        obtain ⟨n', hn, rfl⟩ := List.mem_map.mp hp
        obtain ⟨hl, hg⟩ := matches_literal.mp hm
        exact ⟨⟨n', hn, hl⟩, hg⟩
      · intro ⟨⟨n', hn, hl⟩, hg⟩
        exact ⟨_, List.mem_map_of_mem hn, matches_literal.mpr ⟨hl, hg⟩⟩

private theorem mapM_pattern? {tags : TagSet} {names : List Text}
    (h : List.Forall₂ Tag.Spells tags names) : ∃ ps, tags.mapM Tag.pattern? = some ps ∧
      ps.map (·.1.value) = names.map literal ∧ ps.flatMap (·.2) = [] ∧
      ∀ p ∈ ps, p.1.depth ≤ 2 := by
  induction h with
  | nil => exact ⟨[], rfl, rfl, rfl, by simp⟩
  | cons htag _ ih =>
      obtain ⟨p, hp, hdepth, hvalue⟩ := htag
      obtain ⟨ps, hps, hvalues, hgroups, hdepths⟩ := ih
      refine ⟨(p, []) :: ps, ?_, ?_, ?_, ?_⟩
      · simp [List.mapM_cons, hp, hps]
      · rw [List.map_cons, hvalues, hvalue, List.map_cons]
      · simpa using hgroups
      · simpa [hdepth] using hdepths

/-- The block of tags that spell names exists unless its pattern takes too much room. -/
theorem ofTags_eq {tags : TagSet} {names : List Text} (h : List.Forall₂ Tag.Spells tags names) :
    ofTags tags = if maxRoom < (pattern (anyOf names)).room then .error .tooLarge
      else .ok ⟨pattern (anyOf names), Block.names⟩ := by
  obtain ⟨ps, hps, hvalues, hgroups, hdepths⟩ := mapM_pattern? h
  have hdepth : ¬ maxDepth < Nested.depthOf (ps.map (·.1.depth)) + 2 := by
    have : Nested.depthOf (ps.map (·.1.depth)) ≤ 2 + 1 :=
      depthOf_le (List.forall_mem_map.mpr hdepths)
    simp only [maxDepth]
    omega
  have hparts : anyTag (names.map literal) = anyOf names := by
    rw [anyTag, anyOf, List.isEmpty_map]
  have hungrouped : (names.map literal).map ungrouped = names.map literal := by
    rw [List.map_map]
    exact List.map_congr_left fun name _ => ungrouped_literal name
  have hnodup : ([] ++ Block.names.map Prod.fst).Nodup := by decide
  rw [ofTags, hps]
  simp only [ofPatterns, hvalues, hungrouped, hparts, hgroups, if_neg hdepth, if_pos hnodup]

end Block

namespace Resolver

open Block

variable {tags : TagSet} {names : List Text}

/-- The resolver for tags that spell names recognizes these names, and there is one unless its pattern
takes too much room. -/
theorem recognizes_of_ofTags (branch : Branch) (h : List.Forall₂ Tag.Spells tags names)
    (hsingle : ∀ n ∈ names, '\n' ∉ n) :
    ((pattern (anyOf names)).room ≤ Pattern.maxRoom → ∃ r, ofTags tags branch = .ok r) ∧
      ∀ r, ofTags tags branch = .ok r → r.Recognizes names ∧ r.branch = branch := by
  rw [ofTags, ofTags_eq h]
  split
  · next block hblock =>
    split at hblock
    · cases hblock
    · cases hblock
      refine ⟨fun _ => ⟨_, rfl⟩, fun r hr => ?_⟩
      cases hr
      exact ⟨⟨⟨_, spells_anyOf names, rfl⟩, rfl, hsingle⟩, rfl⟩
  · next defect hblock =>
    split at hblock
    · next hroom => exact ⟨fun h => absurd hroom (Nat.not_lt.mpr h), fun r hr => by cases hr⟩
    · cases hblock

/-- There is a resolver for the default tags. -/
theorem exists_ofTags_default (branch : Branch) :
    ∃ r, ofTags Tag.defaultSet branch = .ok r ∧ r.Recognizes Tag.defaultNames ∧ r.branch = branch := by
  obtain ⟨hbuilt, hrec⟩ := recognizes_of_ofTags branch Tag.spells_default (by decide)
  obtain ⟨r, hr⟩ := hbuilt (by decide)
  exact ⟨r, hr, hrec r hr⟩

/-- Resolving the writing of a document of nested blocks gives the writing of its value: the recognized
blocks without blocks in their bodies have given way, from the inside out, to the body of the branch, and
all other lines stand as they stood. -/
theorem resolve_document (branch : Branch)
    (htags : tags = names.map Tag.literal ∨ tags = Tag.defaultSet ∧ names = Tag.defaultNames)
    (hsingle : ∀ n ∈ names, '\n' ∉ n) :
    ((pattern (anyOf names)).room ≤ Pattern.maxRoom → ∃ r, ofTags tags branch = .ok r) ∧
      ∀ r, ofTags tags branch = .ok r → ∀ (first : PlainLine) (d : Document),
        r.resolve (Text.joinLines (first.text :: d.lines)) =
          Text.joinLines (first.text :: (d.eval names branch).lines) := by
  have hspell : List.Forall₂ Tag.Spells tags names := by
    rcases htags with rfl | ⟨rfl, rfl⟩
    · exact List.forall₂_map_left_iff.mpr
        (List.forall₂_same.mpr fun name _ => Tag.spells_literal name)
    · exact Tag.spells_default
  obtain ⟨hbuilt, hrec⟩ := recognizes_of_ofTags branch hspell hsingle
  refine ⟨hbuilt, ?_⟩
  intro r hr first d
  obtain ⟨hnamed, rfl⟩ := hrec r hr
  rw [Document.joinLines_cons, Document.joinLines_cons, ← Document.text_eq_flatMap,
    ← Document.text_eq_flatMap, hnamed.resolve_eq]

private def noBlanks : Blanks := ⟨[], by simp⟩

private def twoBlanks : Blanks := ⟨"  ", by simp⟩

/-- A block around a block, and a foreign block around one without bodies. -/
private def nestedDocument : Document :=
  .single ⟨noBlanks, "SKIP", by decide⟩
    (.double ⟨twoBlanks, "os(Android)", by decide⟩
      (.line ⟨"a", by decide, by decide⟩ .done) ⟨noBlanks, noBlanks⟩
      (.line ⟨"b", by decide, by decide⟩ .done) twoBlanks .done) noBlanks
    (.single ⟨noBlanks, "os(iOS)", by decide⟩
      (.double ⟨noBlanks, "KOTLIN ", by decide⟩ .done ⟨noBlanks, noBlanks⟩ .done noBlanks
        (.line ⟨"c", by decide, by decide⟩ .done)) noBlanks .done)

theorem resolve_document_nested : ∃ r, ofTags Tag.defaultSet .primary = .ok r ∧
    r.resolve (Text.ofLines ["import A", "#if SKIP", "  #if os(Android)", "a", "#else", "b",
      "  #endif", "#endif", "#if os(iOS)", "#if KOTLIN ", "#else", "#endif", "c", "#endif"]) =
        Text.ofLines ["import A", "a", "#if os(iOS)", "c", "#endif"] := by
  have hdefault := resolve_document .primary (.inr ⟨rfl, rfl⟩)
    (show ∀ n ∈ Tag.defaultNames, '\n' ∉ n by decide)
  obtain ⟨r, hr⟩ := hdefault.1 (by decide)
  exact ⟨r, hr, hdefault.2 r hr ⟨"import A", by decide, by decide⟩ nestedDocument⟩

end Resolver

end Crosscheck
