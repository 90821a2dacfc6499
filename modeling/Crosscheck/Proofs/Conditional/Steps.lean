import Crosscheck.Proofs.Conditional.NormalForm
import Mathlib.Logic.Relation
import Mathlib.Order.WellFounded
/-!
# One block at a time

Blocks whose conditions hold no number sign stand apart from each other: every number sign of a block is one
of its markers, and only the first of them opens a block. So blocks can be resolved one at a time, in any
order, and the text that is left in the end is always the one that the passes lead to.
-/

namespace Crosscheck

open Relation

namespace Block

/-- What stands before a character is passed over whole by a text without it. -/
theorem pass_free {ch : Char} {a b x y : Text} (ha : ch ∉ a) (h : a ++ x = b ++ ch :: y) :
    ∃ b', b = a ++ b' ∧ x = b' ++ ch :: y := by
  rcases List.append_eq_append_iff.mp h with ⟨b', hb, hx⟩ | ⟨a', ha', hy⟩
  · exact ⟨b', hb, hx⟩
  · cases a' with
    | nil => exact ⟨[], by simpa using ha'.symm, hy.symm⟩
    | cons d a' =>
        obtain ⟨rfl, -⟩ := List.cons.inj hy
        exact absurd (by simp [ha']) ha

/-- What stands behind a character is passed over whole, from its end, by a text without it. -/
theorem pass_free_end {ch : Char} {a b x y : Text} (hx : ch ∉ x) (h : a ++ x = b ++ ch :: y) :
    ∃ y', a = b ++ ch :: y' ∧ y = y' ++ x := by
  rcases List.append_eq_append_iff.mp h with ⟨z, hz, hxz⟩ | ⟨z, hz, hyz⟩
  · exact absurd (by simp [hxz]) hx
  · cases z with
    | nil => exact absurd (by simp [show x = _ from hyz.symm]) hx
    | cons d z =>
        obtain ⟨rfl, hy⟩ := List.cons.inj hyz
        exact ⟨z, hz, hy⟩

/-- An `#if` stands behind every other marker before it. -/
theorem pass_marker {w b x y : Text} (hw : '#' ∉ w) (hmark : w.head? = some 'e')
    (h : '#' :: (w ++ x) = b ++ '#' :: 'i' :: y) :
    ∃ b', b = '#' :: (w ++ b') ∧ x = b' ++ '#' :: 'i' :: y := by
  cases b with
  | nil =>
      obtain ⟨w, rfl⟩ := List.head?_eq_some_iff.mp hmark
      cases h
  | cons d b =>
      obtain ⟨rfl, hb⟩ := List.cons.inj h
      obtain ⟨b', rfl, hx⟩ := pass_free hw hb
      exact ⟨b', rfl, hx⟩

namespace Layout

variable {l l' : Layout} {names : List Text} {u u' v v' s : Text}

/-- There is no `#if` between the line of the `#if` and the end of a block. -/
theorem pass_after {b y : Text} (h : l.after ++ v = b ++ '#' :: 'i' :: y) :
    ∃ b', b = l.after ++ b' ∧ v = b' ++ '#' :: 'i' :: y := by
  have hend : '#' ∉ "endif".toList := by decide
  cases ho : l.otherwise with
  | none =>
      rw [after_single ho, ← List.append_assoc] at h
      obtain ⟨b₁, hb, h₁⟩ := pass_free (bodyText_free _ _) h
      obtain ⟨b₂, hb₁, hv⟩ := pass_marker hend rfl h₁
      refine ⟨b₂, ?_, hv⟩
      rw [after_single ho, hb, hb₁, List.append_assoc]
  | some o =>
      obtain ⟨m, a⟩ := o
      have hgap : '#' ∉ "else".toList ++ m.gap.val := by simp [m.gap.not_mem]
      have hbody : '#' ∉ '\n' :: (bodyText a ++ l.closing.val) := by
        simpa using bodyText_free a l.closing
      rw [after_double ho, ← List.append_assoc, ← List.append_assoc "else".toList] at h
      obtain ⟨b₁, hb, h₁⟩ := pass_free (bodyText_free _ _) h
      obtain ⟨b₂, hb₁, h₂⟩ := pass_marker hgap rfl h₁
      rw [← List.append_assoc, ← List.cons_append] at h₂
      obtain ⟨b₃, hb₂, h₃⟩ := pass_free hbody h₂
      obtain ⟨b₄, hb₃, hv⟩ := pass_marker hend rfl h₃
      refine ⟨b₄, ?_, hv⟩
      rw [after_double ho, hb, hb₁, hb₂, hb₃]
      simp

theorem getLast?_text (l : Layout) : l.text.getLast? = some 'f' := by
  have hlast : l.text = (l.lead ++ (l.indent.val ++ ("#if ".toList ++ (l.condition ++
      '\n' :: (bodyText l.primary ++ (elseText l.otherwise ++ (l.closing.val ++ "#endi".toList))))))) ++
        ['f'] := by
    simp [text, after]
  rw [hlast, List.getLast?_append]
  rfl

/-- The text holds the block between `u` and `v`, and the block can be matched there. -/
structure Between (names : List Text) (l : Layout) (u v s : Text) : Prop where
  text : s = u ++ (l.text ++ v)
  lead : l.lead = [] ∧ u = [] ∨ l.lead = ['\n']
  condition : Names names l.condition

/-- What stands before the first marker. -/
def before (l : Layout) (u : Text) : Text := u ++ (l.lead ++ l.indent.val)

theorem text_eq_before (l : Layout) (u v : Text) : u ++ (l.text ++ v) =
    l.before u ++ '#' :: ("if ".toList ++ (l.condition ++ '\n' :: (l.after ++ v))) := by
  simp [text, before]

/-- Two blocks with the same first marker are the same one. -/
theorem Between.same (hnames : ∀ n ∈ names, '\n' ∉ n) (h : l.Between names u v s)
    (h' : l'.Between names u' v' s) (hb : l.before u = l'.before u') : u = u' ∧ l = l' ∧ v = v' := by
  have hindent : '\n' ∉ l.indent.val := l.indent.not_mem (by decide)
  have hindent' : '\n' ∉ l'.indent.val := l'.indent.not_mem (by decide)
  have hlead : u = u' ∧ l.lead = l'.lead := by
    rw [before, before] at hb
    rcases h.lead with ⟨hl, rfl⟩ | hl <;> rcases h'.lead with ⟨hl', rfl⟩ | hl' <;> rw [hl, hl'] at hb
    · exact ⟨rfl, hl.trans hl'.symm⟩
    · exact absurd ((show l.indent.val = _ from hb) ▸ hindent) (by simp)
    · exact absurd ((show _ = l'.indent.val from hb) ▸ hindent') (by simp)
    · exact ⟨(Text.cut_last hindent hindent' hb).1, hl.trans hl'.symm⟩
  obtain ⟨rfl, hlead⟩ := hlead
  have htext := List.append_cancel_left (h.text.symm.trans h'.text)
  exact ⟨rfl, unique hnames h.condition h'.condition hlead htext⟩

/-- A line that opens a block behind the first marker of a block begins behind the end of that block. -/
theorem Between.ends_before (hnames : ∀ n ∈ names, '\n' ∉ n ∧ '#' ∉ n) (h : l.Between names u v s)
    {a w x : Text} {indent : Blanks} (hs : s = a ++ '\n' :: (indent.val ++ '#' :: 'i' :: x))
    (hb : a ++ '\n' :: indent.val = l.before u ++ '#' :: w) :
    ∃ k, a = u ++ (l.text ++ k) ∧ v = k ++ '\n' :: (indent.val ++ '#' :: 'i' :: x) := by
  have hline : '#' ∉ "if ".toList ++ (l.condition ++ ['\n']) := by
    obtain ⟨n, hn, gap, hgap⟩ := h.condition
    simp [hgap, (hnames n hn).2, gap.not_mem]
  have hmarks : "if ".toList ++ (l.condition ++ '\n' :: (l.after ++ v)) = w ++ '#' :: 'i' :: x := by
    have htext := h.text.symm.trans hs
    rw [text_eq_before, show a ++ '\n' :: (indent.val ++ '#' :: 'i' :: x) =
      (a ++ '\n' :: indent.val) ++ '#' :: 'i' :: x by simp, hb, List.append_assoc] at htext
    exact (List.cons.inj (List.append_cancel_left htext)).2
  have hsplit : ("if ".toList ++ (l.condition ++ ['\n'])) ++ (l.after ++ v) = w ++ '#' :: 'i' :: x := by
    rw [← hmarks]
    simp
  obtain ⟨b, rfl, hafter⟩ := pass_free hline hsplit
  obtain ⟨k, rfl, -⟩ := pass_after hafter
  have hplace : a ++ '\n' :: indent.val = (u ++ l.text) ++ k := by
    rw [hb]
    simp [before, Layout.text]
  -- the last character of the first block is no line end and no blank
  obtain ⟨front, hfront⟩ := List.getLast?_eq_some_iff.mp l.getLast?_text
  have hends : a ++ '\n' :: indent.val = (u ++ front) ++ 'f' :: k := by
    rw [hplace, hfront]
    simp
  obtain ⟨k', hk', -⟩ := pass_free_end (by simp [indent.not_mem]) hends
  have ha : a = (u ++ l.text) ++ k' := by
    rw [hk', hfront]
    simp
  refine ⟨k', by rw [ha, List.append_assoc], ?_⟩
  have htext := h.text.symm.trans hs
  rw [ha, ← List.append_assoc, List.append_assoc (u ++ l.text)] at htext
  exact List.append_cancel_left htext

/-- A block whose first marker comes later begins behind the end of the other one. -/
theorem Between.later (hnames : ∀ n ∈ names, '\n' ∉ n ∧ '#' ∉ n) (h : l.Between names u v s)
    (h' : l'.Between names u' v' s) {w : Text} (hb : l'.before u' = l.before u ++ '#' :: w) :
    l'.lead = ['\n'] ∧ ∃ k, u' = u ++ (l.text ++ k) ∧ v = k ++ (l'.text ++ v') := by
  rcases h'.lead with ⟨hl', rfl⟩ | hl'
  · have hindent' : '#' ∉ l'.indent.val := l'.indent.not_mem (by decide)
    rw [before, hl'] at hb
    exact absurd ((show l'.indent.val = _ from hb) ▸ hindent') (by simp)
  · have htext : l'.text ++ v' = '\n' :: (l'.indent.val ++ '#' :: 'i' ::
        ("f ".toList ++ (l'.condition ++ '\n' :: (l'.after ++ v')))) := by simp [Layout.text, hl']
    have hs := h'.text
    rw [before, hl'] at hb
    rw [htext] at hs ⊢
    exact ⟨hl', h.ends_before hnames hs hb⟩

/-- Two blocks in a text are the same one, or one of them ends before the other begins. -/
theorem Between.apart (hnames : ∀ n ∈ names, '\n' ∉ n ∧ '#' ∉ n) (h : l.Between names u v s)
    (h' : l'.Between names u' v' s) : (u = u' ∧ l = l' ∧ v = v') ∨
      (l'.lead = ['\n'] ∧ ∃ k, u' = u ++ (l.text ++ k) ∧ v = k ++ (l'.text ++ v')) ∨
      (l.lead = ['\n'] ∧ ∃ k, u = u' ++ (l'.text ++ k) ∧ v' = k ++ (l.text ++ v)) := by
  have hs := h.text.symm.trans h'.text
  rw [text_eq_before, text_eq_before] at hs
  rcases List.append_eq_append_iff.mp hs with ⟨w, hw, hrest⟩ | ⟨w, hw, hrest⟩
  · cases w with
    | nil => exact .inl (h.same (fun n hn => (hnames n hn).1) h' (by simpa using hw.symm))
    | cons ch w =>
        obtain ⟨rfl, -⟩ := List.cons.inj hrest
        exact .inr (.inl (h.later hnames h' hw))
  · cases w with
    | nil => exact .inl (h.same (fun n hn => (hnames n hn).1) h' (by simpa using hw))
    | cons ch w =>
        obtain ⟨rfl, -⟩ := List.cons.inj hrest
        exact .inr (.inr (h'.later hnames h hw))

end Layout

end Block

/-! ## Steps -/

namespace Resolver

open Block

/-- One match of the pattern, any one, has given way to what replaces it. -/
def Step (r : Resolver) (s t : Text) : Prop :=
  ∃ u c d g, (Cursor.start s).Leads u c ∧ r.block.pattern.Matches c [] d g ∧
    t = u ++ (r.replacement ⟨c.offset, d.offset, (0, c.textTo d) :: g⟩ ++ d.rest)

variable {r : Resolver} {names : List Text} {s t t' : Text}

theorem absent_iff : r.block.Absent s ↔ ∀ t, ¬ r.Step s t := by
  constructor
  · intro h t ⟨u, c, d, g, hu, hm, _⟩
    exact h u c d g hu hm
  · intro h u c d g hu hm
    exact h _ ⟨u, c, d, g, hu, hm, rfl⟩

/-- A text in which no block is left is resolved. -/
theorem TakesBlocks.resolve_of_absent (hr : r.TakesBlocks) (h : r.block.Absent s) : r.resolve s = s :=
  resolve_of_pass?_eq_none ((pass?_eq_none hr.consuming).mpr (Regex.absent_iff.mp h))

theorem TakesBlocks.absent_resolve (hr : r.TakesBlocks) (s : Text) : r.block.Absent (r.resolve s) :=
  Regex.absent_iff.mpr ((pass?_eq_none hr.consuming).mp (hr.pass?_resolve s))

/-- A step deletes characters, and at least 11 of them. -/
theorem TakesBlocks.step_deletes (hr : r.TakesBlocks) (h : r.Step s t) :
    t.Sublist s ∧ t.length + 11 ≤ s.length := by
  obtain ⟨u, c, d, g, hu, hm, rfl⟩ := h
  obtain ⟨l, -, hl, rfl⟩ := hr.layout_of_matches hm
  obtain ⟨hsub, hless⟩ := l.kept_sublist r.branch
  have hs : s = u ++ (l.text ++ d.rest) := by rw [← hl.rest, ← hu.rest, Cursor.start]
  rw [hr.replacement_eq (by rw [hl.textTo]), hs]
  refine ⟨(List.Sublist.refl u).append (hsub.append (.refl d.rest)), ?_⟩
  simp only [List.length_append]
  omega

namespace Recognizes

/-- The steps in the words of the text: any block in it gives way to the body of the branch. -/
theorem step_iff (hr : r.Recognizes names) : r.Step s t ↔
    ∃ l u v, Layout.Between names l u v s ∧ t = u ++ (l.kept r.branch ++ v) := by
  constructor
  · rintro ⟨u, c, d, g, hu, hm, ht⟩
    obtain ⟨l, hfit, hl, rfl⟩ := hr.matches_iff.mp hm
    rw [hr.takesBlocks.replacement_eq (by rw [hl.textTo])] at ht
    refine ⟨l, u, d.rest, ⟨by rw [← hl.rest, ← hu.rest, Cursor.start], ?_, hfit.condition⟩, ht⟩
    rcases hfit.lead with ⟨hlead, hprevious⟩ | hlead
    · rw [hu.previous] at hprevious
      exact .inl ⟨hlead, List.getLast?_eq_none_iff.mp (Option.or_eq_none_iff.mp hprevious).1⟩
    · exact .inr hlead
  · rintro ⟨l, u, v, hl, ht⟩
    obtain ⟨c, hu, hc⟩ := Cursor.exists_leads (show (Cursor.start s).rest = _ from hl.text)
    obtain ⟨d, hd, rfl⟩ := Cursor.exists_leads hc
    refine ⟨u, c, d, l.groups, hu, hr.matches_iff.mpr ⟨l, ⟨?_, hl.condition⟩, hd, rfl⟩, ?_⟩
    · rcases hl.lead with ⟨hlead, rfl⟩ | hlead
      · exact .inl ⟨hlead, hu.previous⟩
      · exact .inr hlead
    · rw [hr.takesBlocks.replacement_eq (by rw [hd.textTo])]
      exact ht

/-- Two steps from a text are the same, or each can be taken after the other. -/
theorem diamond (hr : r.Recognizes names) (hnames : ∀ n ∈ names, '#' ∉ n) (h : r.Step s t)
    (h' : r.Step s t') : t = t' ∨ ∃ x, r.Step t x ∧ r.Step t' x := by
  have hboth : ∀ n ∈ names, '\n' ∉ n ∧ '#' ∉ n := fun n hn => ⟨hr.single n hn, hnames n hn⟩
  -- a block that ends before the other one begins
  have hjoin : ∀ {l l' : Layout} {u v k v' : Text}, (l.lead = [] ∧ u = [] ∨ l.lead = ['\n']) →
      Names names l.condition → l'.lead = ['\n'] → Names names l'.condition →
      v = k ++ (l'.text ++ v') → ∃ x, r.Step (u ++ (l.kept r.branch ++ v)) x ∧
        r.Step (u ++ (l.text ++ k) ++ (l'.kept r.branch ++ v')) x := by
    intro l l' u v k v' hlead hcondition hlead' hcondition' hv
    refine ⟨u ++ (l.kept r.branch ++ (k ++ (l'.kept r.branch ++ v'))), ?_, ?_⟩
    · exact hr.step_iff.mpr ⟨l', u ++ (l.kept r.branch ++ k), v',
        ⟨by simp [hv], .inr hlead', hcondition'⟩, by simp⟩
    · exact hr.step_iff.mpr ⟨l, u, k ++ (l'.kept r.branch ++ v'), ⟨by simp, hlead, hcondition⟩, rfl⟩
  obtain ⟨l, u, v, hl, rfl⟩ := hr.step_iff.mp h
  obtain ⟨l', u', v', hl', rfl⟩ := hr.step_iff.mp h'
  rcases hl.apart hboth hl' with ⟨rfl, rfl, rfl⟩ | ⟨hlead, k, rfl, hv⟩ | ⟨hlead, k, rfl, hv⟩
  · exact .inl rfl
  · exact .inr (hjoin hl.lead hl.condition hlead hl'.condition hv)
  · obtain ⟨x, hx, hx'⟩ := hjoin hl'.lead hl'.condition hlead hl.condition hv
    exact .inr ⟨x, hx', hx⟩

theorem confluent (hr : r.Recognizes names) (hnames : ∀ n ∈ names, '#' ∉ n)
    (h : ReflTransGen r.Step s t) (h' : ReflTransGen r.Step s t') :
    Join (ReflTransGen r.Step) t t' := by
  refine church_rosser (fun a b c hb hc => ?_) h h'
  rcases hr.diamond hnames hb hc with rfl | ⟨x, hx, hx'⟩
  · exact ⟨b, .refl, .refl⟩
  · exact ⟨x, .single hx, .single hx'⟩

end Recognizes

/-! ## A pass is a sequence of steps -/

namespace Recognizes

/-- The walk from a place on takes a step for each match. What it has put together so far stands in the place
of what it has passed over, and is empty at the start of the text. -/
theorem steps_rewriteAt (hr : r.Recognizes names) {c : Cursor} {p : Text}
    (hp : c.previous = none → p = []) :
    ReflTransGen r.Step (p ++ c.rest) (p ++ r.block.rewriteAt r.replacement c) := by
  induction hn : c.rest.length using Nat.strongRecOn generalizing c p with
  | ind n ih =>
      cases hm : r.block.matchAt? c with
      | none =>
          cases hrest : c.rest with
          | nil => rw [Regex.rewriteAt_nil hrest]
          | cons ch rest =>
              have hshorter : rest.length < n := by rw [← hn, hrest, List.length_cons]; omega
              have hwalk := ih rest.length hshorter (c := ⟨some ch, c.offset + 1, rest⟩)
                (p := p ++ [ch]) (fun h => by cases h) rfl
              simpa [Regex.rewriteAt_none hrest hm] using hwalk
      | some found =>
          obtain ⟨m, d⟩ := found
          obtain ⟨l, hfit, hl, hgroups⟩ := hr.layout_of_match hm
          have hne : l.text ≠ [] := fun h => by simpa [h] using l.getLast?_text
          have hprevious : d.previous ≠ none := by
            rw [hl.previous, l.getLast?_text]
            exact Option.some_ne_none _
          have hshorter : d.rest.length < n := by
            have hlength := hl.length
            have hpos := List.length_pos_iff.mpr hne
            omega
          have hstep : r.Step (p ++ c.rest) (p ++ (l.kept r.branch ++ d.rest)) := by
            refine hr.step_iff.mpr ⟨l, p, d.rest, ⟨by rw [hl.rest], ?_, hfit.condition⟩, rfl⟩
            exact hfit.lead.imp_left fun hlead => ⟨hlead.1, hp hlead.2⟩
          have hwalk := ih d.rest.length hshorter (p := p ++ l.kept r.branch)
            (fun h => absurd h hprevious) rfl
          rw [Regex.rewriteAt_some hr.consuming hm, hr.takesBlocks.replacement_eq hgroups]
          simpa using (ReflTransGen.single hstep).trans (by simpa using hwalk)

theorem steps_settle (hr : r.Recognizes names) (bound : Nat) (s : Text) :
    ReflTransGen r.Step s (r.settle bound s) := by
  rw [settle_eq_iterate hr.consuming]
  induction bound generalizing s with
  | zero => exact .refl
  | succ bound ih =>
      rw [Function.iterate_succ_apply]
      have hsweep := hr.steps_rewriteAt (c := Cursor.start s) (p := []) (fun _ => rfl)
      exact hsweep.trans (ih (r.sweep s))

theorem steps_resolve (hr : r.Recognizes names) (s : Text) :
    ReflTransGen r.Step s (r.resolve s) := hr.steps_settle _ s

/-- Steps do not change what a text is resolved to. -/
theorem resolve_of_steps (hr : r.Recognizes names) (hnames : ∀ n ∈ names, '#' ∉ n)
    (h : ReflTransGen r.Step s t) : r.resolve t = r.resolve s := by
  have hstuck {x y : Text} (hx : ReflTransGen r.Step (r.resolve x) y) : y = r.resolve x := by
    rcases hx.cases_head with hxy | ⟨z, hz, -⟩
    · exact hxy.symm
    · exact absurd hz (absent_iff.mp (hr.takesBlocks.absent_resolve x) z)
  obtain ⟨x, hx, hx'⟩ := hr.confluent hnames (h.trans (hr.steps_resolve t)) (hr.steps_resolve s)
  rw [← hstuck hx, ← hstuck hx']

end Recognizes

variable {tags : TagSet} {branch : Branch}

/-- Resolving one block at a time comes to an end, whichever block is taken each time, and the text at the
end is the one that the passes lead to. -/
theorem resolve_any_order (htags : tags = names.map Tag.literal)
    (hnames : ∀ n ∈ names, '\n' ∉ n ∧ '#' ∉ n) :
    ((pattern (anyOf names)).room ≤ Pattern.maxRoom → ∃ r, ofTags tags branch = .ok r) ∧
      ∀ r, ofTags tags branch = .ok r → (WellFounded fun t s => r.Step s t) ∧
        ∀ s, ReflTransGen r.Step s (r.resolve s) ∧
          ∀ t, ReflTransGen r.Step s t → (r.block.Absent t ↔ t = r.resolve s) := by
  have hspell : List.Forall₂ Tag.Spells tags names := by
    rw [htags, List.forall₂_map_left_iff]
    exact List.forall₂_same.mpr fun name _ => Tag.spells_literal name
  obtain ⟨hbuilt, hrec⟩ := recognizes_of_ofTags branch hspell fun n hn => (hnames n hn).1
  refine ⟨hbuilt, fun r hr => ?_⟩
  obtain ⟨hnamed, -⟩ := hrec r hr
  have hblocks := hnamed.takesBlocks
  have hshorter : ∀ t s : Text, r.Step s t → t.length < s.length := fun t s h => by
    have := (hblocks.step_deletes h).2
    omega
  refine ⟨(measure List.length).wf.mono hshorter, fun s => ⟨hnamed.steps_resolve s, fun t ht => ?_⟩⟩
  have hsame := hnamed.resolve_of_steps (fun n hn => (hnames n hn).2) ht
  constructor
  · intro habsent
    rw [← hsame, hblocks.resolve_of_absent habsent]
  · intro heq
    rw [heq]
    exact hblocks.absent_resolve s

/-- The second block opens a line only when the first one has gone. -/
private def touching : Text := "#if A\n#endif#if B\nx\n#endif"

theorem resolve_any_order_touching : ∃ r, ofTags [.literal "A", .literal "B"] .primary = .ok r ∧
    ReflTransGen r.Step touching "x".toList ∧
      ∀ t, ReflTransGen r.Step touching t → r.block.Absent t → t = "x".toList := by
  have htags : [Tag.literal "A", Tag.literal "B"] = ["A".toList, "B".toList].map Tag.literal := rfl
  have hnames : ∀ n ∈ ["A".toList, "B".toList], '\n' ∉ n ∧ '#' ∉ n := by decide
  have hresolved : (ofTags [.literal "A", .literal "B"] .primary).toOption.map
      (·.resolve touching) = some "x".toList := by decide +kernel
  obtain ⟨r, hr, heq⟩ := exists_of_toOption hresolved
  have hvalue : r.resolve touching = "x".toList := heq
  obtain ⟨-, hsteps⟩ := (resolve_any_order htags hnames).2 r hr
  obtain ⟨hreached, hend⟩ := hsteps touching
  rw [hvalue] at hreached hend
  exact ⟨r, hr, hreached, fun t ht => (hend t ht).mp⟩

end Resolver

end Crosscheck
