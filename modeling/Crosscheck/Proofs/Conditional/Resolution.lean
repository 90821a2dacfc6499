import Crosscheck.Proofs.Conditional.Document
import Crosscheck.Proofs.Pattern.Rewriting
/-!
# Resolving documents

The resolver carries out passes over the document that a text is the writing of, so what it ends with is
the writing of the value of the document.
-/

namespace Crosscheck

namespace Document

/-- The lines as they are written, each after a line break. -/
def text : Document → Text
  | .done => []
  | .line s rest => '\n' :: (s.text ++ rest.text)
  | .single o body c rest => '\n' :: (o.line ++ (body.text ++ '\n' :: (closingLine c ++ rest.text)))
  | .double o p m a c rest =>
    '\n' :: (o.line ++ (p.text ++ '\n' :: (m.line ++ (a.text ++ '\n' :: (closingLine c ++ rest.text)))))

theorem text_eq_flatMap (d : Document) : d.text = d.lines.flatMap ('\n' :: ·) := by
  induction d with
  | done => rfl
  | line s rest ih => simp [text, lines, ih]
  | single o body c rest ihb ihr => simp [text, lines, ihb, ihr]
  | double o p m a c rest ihp iha ihr => simp [text, lines, ihp, iha, ihr]

theorem joinLines_cons (first : Text) (ls : List Text) :
    Text.joinLines (first :: ls) = first ++ ls.flatMap ('\n' :: ·) := by
  induction ls generalizing first with
  | nil => exact (List.append_nil first).symm
  | cons l ls ih =>
      rw [List.flatMap_cons, List.cons_append, ← ih l]
      simp [Text.joinLines, Text.join]

theorem text_append (d e : Document) : (d.append e).text = d.text ++ e.text := by
  induction d with
  | done => rfl
  | line s rest ih => simp [append, text, ih]
  | single o body c rest _ ih => simp [append, text, ih]
  | double o p m a c rest _ _ ih => simp [append, text, ih]

/-- The text ends, or the next line begins. -/
def EndsLine (s : Text) : Prop := s = [] ∨ ∃ t, s = '\n' :: t

theorem endsLine_text (d : Document) {s : Text} (hs : EndsLine s) : EndsLine (d.text ++ s) := by
  cases d with
  | done => exact hs
  | line => exact .inr ⟨_, rfl⟩
  | single => exact .inr ⟨_, rfl⟩
  | double => exact .inr ⟨_, rfl⟩

/-- The writing of a document without blocks, as a body. -/
theorem exists_body {d : Document} (h : d.isPlain) : ∃ b : Option Block.Body,
    '\n' :: Block.bodyText b = d.text ++ ['\n'] ∧ (b.elim [] fun b => '\n' :: b.val) = d.text := by
  have hfree : '#' ∉ d.text := by
    induction d with
    | done => exact List.not_mem_nil
    | line s rest ih => simp [text, s.unmarked, ih h]
    | single => cases h
    | double => cases h
  rcases endsLine_text d (.inl rfl : EndsLine []) with hd | ⟨u, hd⟩
  · rw [List.append_nil] at hd
    exact ⟨none, by rw [hd]; rfl, hd.symm⟩
  · rw [List.append_nil] at hd
    rw [hd] at hfree ⊢
    exact ⟨some ⟨u, List.not_mem_of_not_mem_cons hfree⟩, rfl, rfl⟩

/-- The first marker of a document with a block is an `#if`. -/
theorem exists_opening {d : Document} (h : d.isPlain = false) :
    ∃ a x, '#' ∉ a ∧ d.text = '\n' :: (a ++ '#' :: 'i' :: x) := by
  induction d with
  | done => cases h
  | line s rest ih =>
      obtain ⟨a, x, ha, hx⟩ := ih h
      exact ⟨s.text ++ '\n' :: a, x, by simp [s.unmarked, ha], by simp [text, hx]⟩
  | single o body c rest =>
      exact ⟨o.indent.val, _, o.indent.not_mem (by decide), by simp [text, Opening.line]; rfl⟩
  | double o p m a c rest =>
      exact ⟨o.indent.val, _, o.indent.not_mem (by decide), by simp [text, Opening.line]; rfl⟩

end Document

/-- The resolver's pattern is that of a block whose tag records nothing. -/
structure Resolver.TakesBlocks (r : Resolver) : Prop where
  pattern : ∃ tag : Pattern, tag.Silent ∧ r.block.pattern = Block.pattern tag
  groups : r.block.names = Block.names

namespace Resolver.TakesBlocks

open Block

variable {r : Resolver} {c d : Cursor} {g : Groups} {m : Match}

theorem layout_of_matches (hr : r.TakesBlocks) (hm : r.block.pattern.Matches c [] d g) :
    ∃ l : Layout, (l.lead = [] ∧ c.previous = none ∨ l.lead = ['\n']) ∧ c.Leads l.text d ∧
      g = l.groups := by
  obtain ⟨tag, htag, hp⟩ := hr.pattern
  rw [hp] at hm
  obtain ⟨l, hlead, -, hl, hg⟩ := Block.layout_of_matches htag hm
  exact ⟨l, hlead, hl, hg⟩

theorem layout_of_match (hr : r.TakesBlocks) (h : r.block.matchAt? c = some (m, d)) :
    ∃ l : Layout, (l.lead = [] ∧ c.previous = none ∨ l.lead = ['\n']) ∧ c.Leads l.text d ∧
      m.groups = (0, l.text) :: l.groups := by
  obtain ⟨g, hm, rfl⟩ := Regex.matches_of_matchAt? h
  obtain ⟨l, hlead, hl, rfl⟩ := hr.layout_of_matches hm
  exact ⟨l, hlead, hl, by rw [hl.textTo]⟩

theorem consuming (hr : r.TakesBlocks) : r.block.Consuming := by
  intro c m d h
  obtain ⟨l, -, hl, -⟩ := hr.layout_of_match h
  have ho := hl.offset
  simp only [Layout.text, List.length_append, List.length_cons] at ho
  omega

/-- A block gives way to the body of the branch, with what stands before the block. -/
theorem replacement_eq (hr : r.TakesBlocks) {l : Layout} (hm : m.groups = (0, l.text) :: l.groups) :
    r.replacement m = l.kept r.branch := by
  have hlead : r.block.groupNamed? "lead".toList = some leadGroup := by
    rw [Regex.groupNamed?, hr.groups]
    rfl
  have hprimary : r.block.groupNamed? "primary".toList = some primaryGroup := by
    rw [Regex.groupNamed?, hr.groups]
    rfl
  have halternate : r.block.groupNamed? "alternate".toList = some alternateGroup := by
    rw [Regex.groupNamed?, hr.groups]
    rfl
  unfold Resolver.replacement Resolver.named?
  rw [hlead, hprimary, halternate]
  simp only [Option.bind_some, Match.group?, hm, Layout.groups, leadGroup, primaryGroup,
    alternateGroup, Layout.kept, Layout.chosen]
  cases r.branch <;> cases l.primary <;> cases l.alternate <;> rfl

end Resolver.TakesBlocks

/-- The resolver's pattern is that of a block whose tag is one of the names. -/
structure Resolver.Recognizes (r : Resolver) (names : List Text) : Prop where
  pattern : ∃ tag, Block.Spells tag names ∧ r.block.pattern = Block.pattern tag
  groups : r.block.names = Block.names
  single : ∀ n ∈ names, '\n' ∉ n

namespace Resolver.Recognizes

open Block

variable {r : Resolver} {names : List Text} {c d : Cursor} {g : Groups} {m : Match}

theorem takesBlocks (hr : r.Recognizes names) : r.TakesBlocks := by
  obtain ⟨tag, htag, hp⟩ := hr.pattern
  exact ⟨⟨tag, fun hm => (htag.mp hm).2, hp⟩, hr.groups⟩

/-- The resolver's pattern matches the blocks whose condition is one of the names. -/
theorem matches_iff (hr : r.Recognizes names) : r.block.pattern.Matches c [] d g ↔
    ∃ l : Layout, l.Fits names c ∧ c.Leads l.text d ∧ g = l.groups := by
  obtain ⟨tag, htag, hp⟩ := hr.pattern
  rw [hp]
  exact matches_pattern htag

theorem layout_of_match (hr : r.Recognizes names) (h : r.block.matchAt? c = some (m, d)) :
    ∃ l : Layout, l.Fits names c ∧ c.Leads l.text d ∧ m.groups = (0, l.text) :: l.groups := by
  obtain ⟨g, hm, rfl⟩ := Regex.matches_of_matchAt? h
  obtain ⟨l, hfit, hl, rfl⟩ := hr.matches_iff.mp hm
  exact ⟨l, hfit, hl, by rw [hl.textTo]⟩

theorem match_of_layout (hr : r.Recognizes names) {l : Layout} (hfit : l.Fits names c)
    (hl : c.Leads l.text d) : (r.block.matchAt? c).isSome :=
  Regex.matchAt?_isSome (hr.matches_iff.mpr ⟨l, hfit, hl, rfl⟩)

/-- No block is found where none is laid out. -/
theorem matchAt?_eq_none (hr : r.Recognizes names)
    (hno : ∀ (l : Layout) (d : Cursor), l.Fits names c → ¬ c.Leads l.text d) :
    r.block.matchAt? c = none := by
  cases hm : r.block.matchAt? c with
  | none => rfl
  | some found =>
      obtain ⟨l, hfit, hl, -⟩ := hr.layout_of_match (m := found.1) (d := found.2) hm
      exact absurd hl (hno l _ hfit)

theorem consuming (hr : r.Recognizes names) : r.block.Consuming := hr.takesBlocks.consuming

end Resolver.Recognizes

/-! ## One pass -/

/-- Only a line break can lead a block here. -/
def Cursor.Inside (c : Cursor) : Prop := c.previous = none → ∃ u, c.rest = '\n' :: u

theorem Cursor.Leads.inside {c d : Cursor} {u : Text} (h : c.Leads u d) (hu : u ≠ []) :
    d.Inside := by
  intro hd
  rw [h.previous, List.getLast?_eq_some_getLast hu] at hd
  cases hd

/-- Wherever `s` stands ahead inside a text, the walk makes `t` of it. -/
def Resolver.Yields (r : Resolver) (s t : Text) : Prop :=
  ∀ c : Cursor, c.Inside → c.rest = s → r.block.rewriteAt r.replacement c = t

namespace Resolver.Recognizes

open Block Document

variable {r : Resolver} {names : List Text} {s t : Text}

theorem lead_inside {c d : Cursor} {l : Layout} (hfit : l.Fits names c) (hl : c.Leads l.text d)
    (hc : c.Inside) : l.lead = ['\n'] := by
  rcases hfit.lead with hlead | hlead
  · obtain ⟨u, hu⟩ := hc hlead.2
    have hrest := hl.rest
    rw [hu, Layout.text, hlead.1] at hrest
    cases hindent : l.indent.val with
    | nil =>
        rw [hindent] at hrest
        cases hrest
    | cons ch v =>
        rw [hindent] at hrest
        obtain ⟨rfl, -⟩ := List.cons.inj hrest
        exact absurd (hindent ▸ List.mem_cons_self) (l.indent.not_mem (by decide))
  · exact hlead

theorem yields_nil : r.Yields [] [] := fun _ _ hrest => Regex.rewriteAt_nil hrest

theorem yields_cons {ch : Char} (h : r.Yields s t)
    (hno : ∀ c : Cursor, c.Inside → c.rest = ch :: s → r.block.matchAt? c = none) :
    r.Yields (ch :: s) (ch :: t) := by
  intro c hc hrest
  rw [Regex.rewriteAt_none hrest (hno c hc hrest),
    h _ ((Cursor.Leads.single hrest).inside (List.cons_ne_nil _ _)) rfl]

/-- No block starts inside a line. -/
theorem yields_word (hr : r.Recognizes names) {u : Text} (hu : '\n' ∉ u) (h : r.Yields s t) :
    r.Yields (u ++ s) (u ++ t) := by
  induction u with
  | nil => exact h
  | cons ch u ih =>
      refine yields_cons (ih (List.not_mem_of_not_mem_cons hu)) fun c hc hrest => ?_
      refine hr.matchAt?_eq_none fun l d hfit hl => ?_
      have hstart := hl.rest
      rw [hrest, Layout.text, lead_inside hfit hl hc] at hstart
      obtain ⟨rfl, -⟩ := List.cons.inj hstart
      exact hu List.mem_cons_self

/-- A line is kept unless it is the `#if` of a block that is laid out from there on. -/
theorem yields_line (hr : r.Recognizes names) {line : Text} (hline : '\n' ∉ line)
    (hs : EndsLine s) (hno : ∀ (l : Layout) (x : Text), Names names l.condition →
      line = l.indent.val ++ ("#if ".toList ++ l.condition) → s ≠ '\n' :: (l.after ++ x))
    (h : r.Yields s t) : r.Yields ('\n' :: (line ++ s)) ('\n' :: (line ++ t)) := by
  refine yields_cons (hr.yields_word hline h) fun c hc hrest => ?_
  refine hr.matchAt?_eq_none fun l d hfit hl => ?_
  have htext : l.lead ++ (line ++ s) = l.text ++ d.rest := by
    rw [← hl.rest, hrest, lead_inside hfit hl hc]
    rfl
  obtain ⟨hopen, hafter⟩ := Layout.cut_line hr.single hfit.condition hline hs htext
  exact hno l _ hfit.condition hopen hafter

/-- The line of an `#else` or an `#endif` starts no block. -/
theorem yields_marker (hr : r.Recognizes names) {u : Blanks} {x : Text} (hx : '\n' ∉ x)
    (hs : EndsLine s) (h : r.Yields s t) :
    r.Yields ('\n' :: (u.val ++ '#' :: 'e' :: x ++ s)) ('\n' :: (u.val ++ '#' :: 'e' :: x ++ t)) := by
  refine hr.yields_line (by simp [u.not_mem, hx]) hs ?_ h
  intro l _ _ hopen
  obtain ⟨-, hmark⟩ := Text.cut_first (u.not_mem (by decide)) (l.indent.not_mem (by decide)) hopen
  cases hmark

/-- A block that is laid out here gives way to the body of the branch. -/
theorem yields_block (hr : r.Recognizes names) {l : Layout} (hlead : l.lead = ['\n'])
    (hcondition : Names names l.condition) (h : r.Yields s t) :
    r.Yields (l.text ++ s) (l.kept r.branch ++ t) := by
  intro c hc hrest
  obtain ⟨d₀, hl₀, -⟩ := Cursor.exists_leads hrest
  obtain ⟨⟨m, d⟩, hm⟩ := Option.isSome_iff_exists.mp
    (hr.match_of_layout ⟨.inr hlead, hcondition⟩ hl₀)
  obtain ⟨l', hfit, hl, hgroups⟩ := hr.layout_of_match hm
  have hsame : l.lead = l'.lead := hlead.trans (lead_inside hfit hl hc).symm
  obtain ⟨rfl, rfl⟩ := Layout.unique hr.single hcondition hfit.condition hsame (hrest.symm.trans hl.rest)
  have hne : l.text ≠ [] := by simp [Layout.text, hlead]
  rw [Regex.rewriteAt_some hr.consuming hm, h d (hl.inside hne) rfl,
    hr.takesBlocks.replacement_eq hgroups]

end Resolver.Recognizes

/-! ## Blocks that are not ready stay -/

namespace Block.Layout

open Document

variable {l : Layout} {names : List Text} {o : Opening}

/-- No body of a block goes on to an `#if`. -/
theorem after_ne_opening {a x y : Text} (ha : '#' ∉ a) : l.after ++ x ≠ a ++ '#' :: 'i' :: y := by
  intro h
  cases ho : l.otherwise with
  | none =>
      rw [after_single ho] at h
      cases (cut_marker ha h).2
  | some e =>
      rw [after_double ho] at h
      cases (cut_marker ha h).2

/-- The line of the `#if` determines the condition. -/
theorem isOwn_of_line (hl : Names names l.condition)
    (h : o.line = l.indent.val ++ ("#if ".toList ++ l.condition)) : o.isOwn names := by
  obtain ⟨-, hc⟩ := Text.cut_first (o.indent.not_mem (by decide)) (l.indent.not_mem (by decide)) h
  rw [Opening.isOwn_iff]
  rwa [List.append_cancel_left (show "if ".toList ++ o.condition = "if ".toList ++ l.condition from hc)]

theorem after_ne_single {body : Document} (hb : body.isPlain = false) (s x : Text) :
    body.text ++ s ≠ '\n' :: (l.after ++ x) := by
  obtain ⟨a, y, ha, hy⟩ := exists_opening hb
  rw [hy]
  intro h
  refine after_ne_opening (l := l) (x := x) (y := y ++ s) ha ?_
  simpa using (List.cons.inj h).2.symm

theorem after_ne_double {p a : Document} {m : Middle} (hp : p.isPlain) (ha : a.isPlain = false)
    (s x : Text) : p.text ++ '\n' :: (m.line ++ (a.text ++ s)) ≠ '\n' :: (l.after ++ x) := by
  obtain ⟨b, hb, -⟩ := exists_body hp
  obtain ⟨v, y, hv, hy⟩ := exists_opening ha
  rw [List.append_cons, ← hb, List.cons_append, hy]
  intro h
  have h : l.after ++ x = bodyText b ++ (m.indent.val ++ '#' :: ("else".toList ++ (m.gap.val ++
      '\n' :: (v ++ '#' :: 'i' :: (y ++ s))))) := by
    simpa [Middle.line] using (List.cons.inj h).2.symm
  cases ho : l.otherwise with
  | none =>
      rw [after_single ho] at h
      obtain ⟨-, -, hmark⟩ := cut_body h
      cases hmark
  | some e =>
      rw [after_double ho] at h
      obtain ⟨-, -, hmark⟩ := cut_body h
      obtain ⟨-, hrest⟩ := Text.cut_first (e.1.gap.not_mem (by decide)) (m.gap.not_mem (by decide))
        (List.append_cancel_left hmark)
      cases (cut_marker hv hrest).2

end Block.Layout

/-! ## Blocks that are ready are laid out as one -/

namespace Block.Layout

open Document

variable {o : Opening} {body p a rest : Document} {m : Middle} {b b' : Option Body} {c : Blanks}

private theorem bodyText_line (h : '\n' :: bodyText b = body.text ++ ['\n']) (s : Text) :
    '\n' :: (bodyText b ++ s) = body.text ++ '\n' :: s := by
  rw [← List.cons_append, h, List.append_assoc, List.singleton_append]

theorem text_of_single (h : '\n' :: bodyText b = body.text ++ ['\n']) (s : Text) :
    (Layout.text ⟨['\n'], o.indent, o.condition, b, none, c⟩) ++ (rest.text ++ s) =
      (Document.single o body c rest).text ++ s := by
  simp only [Layout.text, Layout.after, Layout.elseText, Document.text, Opening.line, closingLine,
    List.append_assoc, List.cons_append, List.nil_append, bodyText_line h]

theorem text_of_double (hp : '\n' :: bodyText b = p.text ++ ['\n'])
    (ha : '\n' :: bodyText b' = a.text ++ ['\n']) (s : Text) :
    (Layout.text ⟨['\n'], o.indent, o.condition, b, some (m, b'), c⟩) ++ (rest.text ++ s) =
      (Document.double o p m a c rest).text ++ s := by
  simp only [Layout.text, Layout.after, Layout.elseText, Document.text, Opening.line, closingLine,
    List.append_assoc, List.cons_append, List.nil_append, bodyText_line hp, bodyText_line ha]

end Block.Layout

namespace Resolver.Recognizes

open Block Document

variable {r : Resolver} {names : List Text} {s t : Text}

theorem yields_closing (hr : r.Recognizes names) (c : Blanks) (hs : EndsLine s) (h : r.Yields s t) :
    r.Yields ('\n' :: (closingLine c ++ s)) ('\n' :: (closingLine c ++ t)) :=
  hr.yields_marker (x := "ndif".toList) (by decide) hs h

theorem yields_middle (hr : r.Recognizes names) (m : Middle) (hs : EndsLine s) (h : r.Yields s t) :
    r.Yields ('\n' :: (m.line ++ s)) ('\n' :: (m.line ++ t)) := by
  have hgap : '\n' ∉ "lse".toList ++ m.gap.val := by simp [m.gap.not_mem]
  simpa [Middle.line] using hr.yields_marker (u := m.indent) hgap hs h

/-- The `#if` of a block that is not ready is kept. -/
theorem yields_opening (hr : r.Recognizes names) {o : Opening} (hs : EndsLine s)
    (hno : o.isOwn names → ∀ (l : Layout) (x : Text), s ≠ '\n' :: (l.after ++ x))
    (h : r.Yields s t) : r.Yields ('\n' :: (o.line ++ s)) ('\n' :: (o.line ++ t)) := by
  have hline : '\n' ∉ o.line := by simp [Opening.line, o.single, o.indent.not_mem]
  refine hr.yields_line hline hs ?_ h
  intro l x hl hopen
  exact hno (Layout.isOwn_of_line hl hopen) l x

/-! A block that is ready gives way to the body that the branch keeps. -/

theorem yields_single (hr : r.Recognizes names) {o : Opening} {body rest : Document} (c : Blanks)
    (ho : o.isOwn names) (hb : body.isPlain) (h : r.Yields (rest.text ++ s) t) :
    r.Yields ((Document.single o body c rest).text ++ s) ((kept r.branch body .done).text ++ t) := by
  obtain ⟨b, hbody, hkept⟩ := exists_body hb
  have hblock := hr.yields_block (l := ⟨['\n'], o.indent, o.condition, b, none, c⟩) rfl
    (Opening.isOwn_iff.mp ho) h
  rw [Layout.text_of_single hbody] at hblock
  cases hbranch : r.branch with
  | primary => simpa [hbranch, kept, hkept, Layout.kept, Layout.chosen] using hblock
  | alternate => simpa [hbranch, kept, Layout.kept, Layout.chosen, Layout.alternate, text] using hblock

theorem yields_double (hr : r.Recognizes names) {o : Opening} {p a rest : Document} (m : Middle)
    (c : Blanks) (ho : o.isOwn names) (hp : p.isPlain) (ha : a.isPlain)
    (h : r.Yields (rest.text ++ s) t) :
    r.Yields ((Document.double o p m a c rest).text ++ s) ((kept r.branch p a).text ++ t) := by
  obtain ⟨b, hprimary, hkeptp⟩ := exists_body hp
  obtain ⟨b', halternate, hkepta⟩ := exists_body ha
  have hblock := hr.yields_block (l := ⟨['\n'], o.indent, o.condition, b, some (m, b'), c⟩) rfl
    (Opening.isOwn_iff.mp ho) h
  rw [Layout.text_of_double hprimary halternate] at hblock
  cases hbranch : r.branch with
  | primary => simpa [hbranch, kept, hkeptp, Layout.kept, Layout.chosen] using hblock
  | alternate => simpa [hbranch, kept, Layout.kept, Layout.chosen, Layout.alternate, hkepta] using hblock

/-- The walk over the writing of a document writes the document after a pass. -/
theorem yields_pass (hr : r.Recognizes names) (d : Document) {s t : Text} (hs : EndsLine s)
    (h : r.Yields s t) : r.Yields (d.text ++ s) ((d.pass names r.branch).text ++ t) := by
  induction d generalizing s t with
  | done => exact h
  | line u rest ih =>
      have hline := hr.yields_line u.single (endsLine_text rest hs) ?_ (ih hs h)
      · simpa [text, Document.pass] using hline
      · intro l _ _ hopen
        exact absurd u.unmarked (by simp [hopen])
  | single o body c rest ihb ihr =>
      have hrest := ihr hs h
      rw [Document.pass]
      split
      · next hready =>
        obtain ⟨ho, hb⟩ := Bool.and_eq_true_iff.mp hready
        rw [text_append, List.append_assoc]
        exact hr.yields_single c ho hb hrest
      · next hready =>
        have hclosing := hr.yields_closing c (endsLine_text rest hs) hrest
        have hbody := ihb (.inr ⟨_, rfl⟩) hclosing
        have hopening := hr.yields_opening (o := o) (endsLine_text body (.inr ⟨_, rfl⟩)) ?_ hbody
        · simpa [text] using hopening
        · intro ho l x
          exact Layout.after_ne_single (by simpa [ho] using hready) _ x
  | double o p m a c rest ihp iha ihr =>
      have hrest := ihr hs h
      rw [Document.pass]
      split
      · next hready =>
        obtain ⟨hop, ha⟩ := Bool.and_eq_true_iff.mp hready
        obtain ⟨ho, hp⟩ := Bool.and_eq_true_iff.mp hop
        rw [text_append, List.append_assoc]
        exact hr.yields_double m c ho hp ha hrest
      · next hready =>
        have hclosing := hr.yields_closing c (endsLine_text rest hs) hrest
        have halternate := iha (.inr ⟨_, rfl⟩) hclosing
        have hmiddle := hr.yields_middle m (endsLine_text a (.inr ⟨_, rfl⟩)) halternate
        have hprimary := ihp (.inr ⟨_, rfl⟩) hmiddle
        have hopening := hr.yields_opening (o := o) (endsLine_text p (.inr ⟨_, rfl⟩)) ?_ hprimary
        · simpa [text] using hopening
        · intro ho l x
          cases hp : p.isPlain with
          | false => exact Layout.after_ne_single hp _ x
          | true => exact Layout.after_ne_double hp (by simpa [ho, hp] using hready) _ x

end Resolver.Recognizes

end Crosscheck
