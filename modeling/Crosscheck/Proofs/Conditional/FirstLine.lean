import Crosscheck.Proofs.Conditional.Steps
/-!
# The line before a text

A text resolves the same way behind a plain line, with one exception. A block without a body for the branch
goes together with the line break before it. At the start of a text there is none, and the end of the last
line of the block stays; behind a line there is one, and it goes.
-/

namespace Crosscheck

open Relation

namespace Block.Layout

variable {l : Layout} {branch : Branch} {names : List Text} {u v s : Text}

/-- The block as it is at the start of a text. -/
def atStart (l : Layout) : Layout := { l with lead := [] }

/-- The block as it is at the start of a line. -/
def atLine (l : Layout) : Layout := { l with lead := ['\n'] }

theorem atLine_atStart (h : l.lead = ['\n']) : l.atStart.atLine = l := by
  cases l
  cases h
  rfl

theorem text_atLine (h : l.lead = []) : l.atLine.text = '\n' :: l.text := by
  simp [atLine, text, after, h]

/-- What is kept of a block has the line break before it, unless the block goes without a body. -/
theorem kept_atLine (h : l.lead = []) : l.atLine.kept branch = '\n' :: l.kept branch ∨
    l.chosen branch = none ∧ l.kept branch = [] ∧ l.atLine.kept branch = [] := by
  have hline : l.atLine.chosen branch = l.chosen branch := by cases branch <;> rfl
  cases hb : l.chosen branch with
  | none => exact .inr ⟨rfl, by rw [kept, hb]; rfl, by rw [kept, hline, hb]; rfl⟩
  | some b =>
      refine .inl ?_
      rw [kept, kept, hline, hb, h]
      rfl

/-- A block behind a plain line opens the text that follows the line, or lies inside it. -/
theorem Between.behind_line (p : PlainLine) (h : l.Between names u v (p.text ++ '\n' :: s)) :
    l.lead = ['\n'] ∧ (u = p.text ∧ s = l.atStart.text ++ v ∨
      ∃ u', u = p.text ++ '\n' :: u' ∧ s = u' ++ (l.text ++ v)) := by
  have hs := h.text
  rcases h.lead with ⟨hl, rfl⟩ | hl
  · have hindent : '\n' ∉ l.indent.val := l.indent.not_mem (by decide)
    have hstart : l.indent.val ++ '#' :: ("if ".toList ++ (l.condition ++ '\n' :: (l.after ++ v))) =
        p.text ++ '\n' :: s := by
      rw [hs]
      simp [Layout.text, hl]
    obtain ⟨b, hb, hrest⟩ := pass_free hindent hstart
    cases b with
    | nil => cases hrest
    | cons ch b =>
        obtain ⟨rfl, -⟩ := List.cons.inj hrest
        exact absurd (by simp [hb]) p.unmarked
  · have htext : l.text ++ v = '\n' :: (l.atStart.text ++ v) := by
      rw [← atLine_atStart hl, text_atLine rfl]
      rfl
    rw [htext] at hs
    obtain ⟨b, rfl, hrest⟩ := pass_free p.single hs
    refine ⟨hl, ?_⟩
    cases b with
    | nil => exact .inl ⟨by simp, (List.cons.inj hrest).2⟩
    | cons ch b =>
        obtain ⟨rfl, hinside⟩ := List.cons.inj hrest
        exact .inr ⟨b, rfl, by rw [htext]; exact hinside⟩

/-- A block behind a part of a line opens the whole text, or lies inside the text that follows. -/
theorem Between.behind_word (p : PlainLine) (h : l.Between names u v (p.text ++ s)) :
    (l.lead = [] ∧ u = [] ∧ ∃ indent : Blanks, s = { l with indent := indent }.text ++ v) ∨
      l.lead = ['\n'] ∧ ∃ u', u = p.text ++ u' ∧ s = u' ++ (l.text ++ v) := by
  have hs := h.text
  rcases h.lead with ⟨hl, rfl⟩ | hl
  · refine .inl ⟨hl, rfl, ?_⟩
    have hstart : p.text ++ s =
        l.indent.val ++ '#' :: ("if ".toList ++ (l.condition ++ '\n' :: (l.after ++ v))) := by
      rw [hs]
      simp [Layout.text, hl]
    obtain ⟨b, hb, rfl⟩ := pass_free p.unmarked hstart
    have hblank : ∀ ch ∈ b, ch = ' ' ∨ ch = '\t' := fun ch hch =>
      l.indent.property ch (by simp [hb, hch])
    exact ⟨⟨b, hblank⟩, by simp [Layout.text, after, hl]⟩
  · refine .inr ⟨hl, ?_⟩
    have htext : l.text ++ v = '\n' :: (l.atStart.text ++ v) := by
      rw [← atLine_atStart hl, text_atLine rfl]
      rfl
    rw [htext] at hs
    obtain ⟨b, rfl, rfl⟩ := pass_free p.single hs
    exact ⟨b, rfl, by rw [htext]⟩

end Block.Layout

namespace Resolver

open Block Layout

/-- The text opens with a block that goes without a body, and `t` stands behind the block. -/
def Clears (r : Resolver) (names : List Text) (s t : Text) : Prop :=
  ∃ l : Layout, l.lead = [] ∧ Names names l.condition ∧ l.chosen r.branch = none ∧ s = l.text ++ t

namespace Recognizes

variable {r : Resolver} {names : List Text} {s t : Text}

theorem step_of_clears (hr : r.Recognizes names) (h : r.Clears names s t) : r.Step s t := by
  obtain ⟨l, hlead, hcondition, hnone, rfl⟩ := h
  refine hr.step_iff.mpr ⟨l, [], t, ⟨rfl, .inl ⟨hlead, rfl⟩, hcondition⟩, ?_⟩
  rw [kept, hnone]
  rfl

/-- Behind a line, a block that goes without a body takes the end of the line with it. -/
theorem step_line_of_clears (hr : r.Recognizes names) (p : PlainLine) (h : r.Clears names s t) :
    r.Step (p.text ++ '\n' :: s) (p.text ++ t) := by
  obtain ⟨l, hlead, hcondition, hnone, rfl⟩ := h
  refine hr.step_iff.mpr ⟨l.atLine, p.text, t, ⟨?_, .inr rfl, hcondition⟩, ?_⟩
  · rw [text_atLine hlead]
    rfl
  · rcases @kept_atLine _ r.branch hlead with hkept | ⟨-, -, hkept⟩
    · have hline : l.atLine.chosen r.branch = l.chosen r.branch := by cases r.branch <;> rfl
      rw [kept, hline, hnone] at hkept
      cases hkept
    · rw [hkept, List.nil_append]

/-- All other steps can also be taken behind a line. -/
theorem step_line (hr : r.Recognizes names) (p : PlainLine) (h : r.Step s t) :
    r.Step (p.text ++ '\n' :: s) (p.text ++ '\n' :: t) ∨ r.Clears names s t := by
  obtain ⟨l, u, v, hl, rfl⟩ := hr.step_iff.mp h
  have htext := hl.text
  rcases hl.lead with ⟨hlead, rfl⟩ | hlead
  · rcases @kept_atLine _ r.branch hlead with hkept | ⟨hnone, hkept, -⟩
    · refine .inl (hr.step_iff.mpr ⟨l.atLine, p.text, v, ⟨?_, .inr rfl, hl.condition⟩, ?_⟩)
      · rw [htext, text_atLine hlead]
        rfl
      · rw [hkept]
        rfl
    · exact .inr ⟨l, hlead, hl.condition, hnone, by rw [htext, hkept]; rfl⟩
  · refine .inl (hr.step_iff.mpr ⟨l, p.text ++ '\n' :: u, v, ⟨?_, .inr hlead, hl.condition⟩, ?_⟩)
    · rw [htext, List.append_assoc]
      rfl
    · simp

/-- A text that is resolved is resolved behind a line, too. -/
theorem absent_line (hr : r.Recognizes names) (p : PlainLine) (h : r.block.Absent s) :
    r.block.Absent (p.text ++ '\n' :: s) := by
  refine absent_iff.mpr fun t ht => ?_
  obtain ⟨l, u, v, hl, -⟩ := hr.step_iff.mp ht
  obtain ⟨hlead, ⟨-, hs⟩ | ⟨u', -, hs⟩⟩ := hl.behind_line p
  · exact absent_iff.mp h _ (hr.step_iff.mpr ⟨l.atStart, [], v, ⟨hs, .inl ⟨rfl, rfl⟩, hl.condition⟩, rfl⟩)
  · exact absent_iff.mp h _ (hr.step_iff.mpr ⟨l, u', v, ⟨hs, .inr hlead, hl.condition⟩, rfl⟩)

/-- A step behind a part of a line is one of the text itself; the part goes if it indents the block. -/
theorem step_of_word (hr : r.Recognizes names) (p : PlainLine) (h : r.Step (p.text ++ s) t) :
    (∃ s', r.Step s s' ∧ t = p.text ++ s') ∨ r.Step s t := by
  obtain ⟨l, u, v, hl, rfl⟩ := hr.step_iff.mp h
  rcases hl.behind_word p with ⟨hlead, rfl, indent, hs⟩ | ⟨hlead, u', rfl, hs⟩
  · refine .inr (hr.step_iff.mpr ⟨{ l with indent := indent }, [], v,
      ⟨hs, .inl ⟨hlead, rfl⟩, hl.condition⟩, ?_⟩)
    cases r.branch <;> rfl
  · refine .inl ⟨u' ++ (l.kept r.branch ++ v), ?_, by rw [List.append_assoc]⟩
    exact hr.step_iff.mpr ⟨l, u', v, ⟨hs, .inr hlead, hl.condition⟩, rfl⟩

/-! ## Runs -/

/-- A run can be repeated behind a line, up to the first block that takes the end of the line with it. -/
theorem steps_line (hr : r.Recognizes names) (p : PlainLine) (h : ReflTransGen r.Step s t) :
    ReflTransGen r.Step (p.text ++ '\n' :: s) (p.text ++ '\n' :: t) ∨
      ∃ t₁ t₂, ReflTransGen r.Step s t₁ ∧ r.Clears names t₁ t₂ ∧
        ReflTransGen r.Step (p.text ++ '\n' :: s) (p.text ++ '\n' :: t₁) := by
  induction h with
  | refl => exact .inl .refl
  | tail hst hstep ih =>
      rcases ih with ih | ih
      · rcases hr.step_line p hstep with hline | hclears
        · exact .inl (ih.tail hline)
        · exact .inr ⟨_, _, hst, hclears, ih⟩
      · exact .inr ih

/-- A part of a line before a text is kept, or goes with the indentation of a block. -/
theorem steps_of_word (hr : r.Recognizes names) (p : PlainLine)
    (h : ReflTransGen r.Step (p.text ++ s) t) :
    (∃ s', ReflTransGen r.Step s s' ∧ t = p.text ++ s') ∨ ReflTransGen r.Step s t := by
  induction h with
  | refl => exact .inl ⟨s, .refl, rfl⟩
  | tail _ hstep ih =>
      rcases ih with ⟨s', hs', rfl⟩ | ih
      · rcases hr.step_of_word p hstep with ⟨s'', hs'', rfl⟩ | hs''
        · exact .inl ⟨s'', hs'.tail hs'', rfl⟩
        · exact .inr (hs'.tail hs'')
      · exact .inr (ih.tail hstep)

theorem resolve_line (hr : r.Recognizes names) (hnames : ∀ n ∈ names, '#' ∉ n) (p : PlainLine)
    (h : ¬ ∃ t₁ t₂, ReflTransGen r.Step s t₁ ∧ r.Clears names t₁ t₂) :
    r.resolve (p.text ++ '\n' :: s) = p.text ++ '\n' :: r.resolve s := by
  rcases hr.steps_line p (hr.steps_resolve s) with hsteps | ⟨t₁, t₂, hsteps, hclears, -⟩
  · rw [← hr.resolve_of_steps hnames hsteps]
    exact hr.takesBlocks.resolve_of_absent (hr.absent_line p (hr.takesBlocks.absent_resolve s))
  · exact absurd ⟨t₁, t₂, hsteps, hclears⟩ h

/-- Without the line break between them, a part of a line and a text cannot come to the same. -/
theorem resolve_word_ne (hr : r.Recognizes names) (hnames : ∀ n ∈ names, '#' ∉ n) (p : PlainLine)
    (s : Text) : r.resolve (p.text ++ s) ≠ p.text ++ '\n' :: r.resolve s := by
  intro heq
  have hsteps := hr.steps_resolve (p.text ++ s)
  rw [heq] at hsteps
  rcases hr.steps_of_word p hsteps with ⟨s', hs', hkept⟩ | hs'
  · -- the text would come to a line break and its own value, in which there is no block either
    obtain rfl := List.append_cancel_left hkept
    have habsent : r.block.Absent ('\n' :: r.resolve s) :=
      hr.absent_line ⟨[], by simp, by simp⟩ (hr.takesBlocks.absent_resolve s)
    have hsame := hr.resolve_of_steps hnames hs'
    rw [hr.takesBlocks.resolve_of_absent habsent] at hsame
    have := congrArg List.length hsame
    simp at this
  · have hsame := hr.resolve_of_steps hnames hs'
    rw [← heq, hr.takesBlocks.resolve_of_absent (hr.takesBlocks.absent_resolve _), heq] at hsame
    have := congrArg List.length hsame
    simp at this
    omega

theorem resolve_line_of_clears (hr : r.Recognizes names) (hnames : ∀ n ∈ names, '#' ∉ n)
    (p : PlainLine) (h : r.Clears names s t) : r.resolve s = r.resolve t ∧
      r.resolve (p.text ++ '\n' :: s) = r.resolve (p.text ++ t) :=
  ⟨(hr.resolve_of_steps hnames (.single (hr.step_of_clears h))).symm,
    (hr.resolve_of_steps hnames (.single (hr.step_line_of_clears p h))).symm⟩

theorem resolve_line_ne (hr : r.Recognizes names) (hnames : ∀ n ∈ names, '#' ∉ n) (p : PlainLine)
    {t₁ t₂ : Text} (h : ReflTransGen r.Step s t₁) (hclears : r.Clears names t₁ t₂) :
    r.resolve (p.text ++ '\n' :: s) ≠ p.text ++ '\n' :: r.resolve s := by
  obtain ⟨t₁, t₂, hfirst, hclears, hline⟩ : ∃ t₁ t₂, ReflTransGen r.Step s t₁ ∧
      r.Clears names t₁ t₂ ∧ ReflTransGen r.Step (p.text ++ '\n' :: s) (p.text ++ '\n' :: t₁) := by
    rcases hr.steps_line p h with hline | hearlier
    · exact ⟨t₁, t₂, h, hclears, hline⟩
    · exact hearlier
  obtain ⟨hopen, hbehind⟩ := hr.resolve_line_of_clears hnames p hclears
  rw [← hr.resolve_of_steps hnames hline, ← hr.resolve_of_steps hnames hfirst, hopen, hbehind]
  exact hr.resolve_word_ne hnames p t₂

end Recognizes

/-- Behind a plain line, a text resolves to the line and what it resolves to by itself, unless a block
without a body for the branch gets to open it. Such a block goes together with the end of a line before it,
and at the start of a text without any line end. -/
theorem resolve_line_iff (branch : Branch) : ∃ r, ofTags Tag.defaultSet branch = .ok r ∧
    ∀ (p : PlainLine) (s : Text),
      (r.resolve (p.text ++ '\n' :: s) = p.text ++ '\n' :: r.resolve s ↔
        ¬ ∃ t₁ t₂, ReflTransGen r.Step s t₁ ∧ r.Clears Tag.defaultNames t₁ t₂) ∧
      ∀ t, r.Clears Tag.defaultNames s t → r.resolve s = r.resolve t ∧
        r.resolve (p.text ++ '\n' :: s) = r.resolve (p.text ++ t) := by
  have hnames : ∀ n ∈ Tag.defaultNames, '\n' ∉ n ∧ '#' ∉ n := by decide
  obtain ⟨hbuilt, hrec⟩ := recognizes_of_ofTags branch Tag.spells_default fun n hn => (hnames n hn).1
  obtain ⟨r, hr⟩ := hbuilt (by decide)
  obtain ⟨hnamed, -⟩ := hrec r hr
  have hmarks : ∀ n ∈ Tag.defaultNames, '#' ∉ n := fun n hn => (hnames n hn).2
  refine ⟨r, hr, fun p s => ⟨⟨?_, hnamed.resolve_line hmarks p⟩, fun t ht => ?_⟩⟩
  · rintro heq ⟨t₁, t₂, hsteps, hclears⟩
    exact hnamed.resolve_line_ne hmarks p hsteps hclears heq
  · exact hnamed.resolve_line_of_clears hmarks p ht

/-- The block opens the text and goes without a body, and an empty line stays in its place; behind a line
it goes with its lines. -/
theorem resolve_line_opening : ∃ r, ofTags Tag.defaultSet .alternate = .ok r ∧
    r.resolve "#if KOTLIN\nx\n#endif\ny" = "\ny".toList ∧
      r.resolve "p\n#if KOTLIN\nx\n#endif\ny" = "p\ny".toList ∧
      r.resolve "p\n#if KOTLIN\nx\n#endif\ny" ≠
        "p".toList ++ '\n' :: r.resolve "#if KOTLIN\nx\n#endif\ny" := by
  have hresolved : (ofTags Tag.defaultSet .alternate).toOption.map (fun r =>
      (r.resolve "#if KOTLIN\nx\n#endif\ny", r.resolve "p\n#if KOTLIN\nx\n#endif\ny")) =
        some ("\ny".toList, "p\ny".toList) := by decide +kernel
  obtain ⟨r, hr, hvalues⟩ := exists_of_toOption hresolved
  obtain ⟨hopen, hbehind⟩ := Prod.mk.inj hvalues
  refine ⟨r, hr, hopen, hbehind, ?_⟩
  rw [hopen, hbehind]
  decide

end Resolver

end Crosscheck
