import Crosscheck.Conditional.Block
import Crosscheck.Proofs.Pattern.Forms
import Crosscheck.Proofs.Text.Pieces
/-!
# The layout of a block

A block as the parts that its pattern tells apart. The pattern matches a text exactly if the text is laid
out like that, and there is at most one layout for a text, because bodies hold no number sign and blanks
no newline.
-/

namespace Crosscheck

/-- A text of spaces and tabs. -/
abbrev Blanks := {s : Text // ∀ c ∈ s, c = ' ' ∨ c = '\t'}

theorem Blanks.not_mem {ch : Char} (b : Blanks) (h : ch ≠ ' ' ∧ ch ≠ '\t') : ch ∉ b.val := by
  intro hm
  rcases b.property ch hm with rfl | rfl
  · exact h.1 rfl
  · exact h.2 rfl

namespace Block

open Pattern

/-- What a block can hold between two markers. -/
abbrev Body := {s : Text // '#' ∉ s}

/-- A body with the end of its last line. -/
def bodyText : Option Body → Text
  | none => []
  | some b => b.val ++ ['\n']

/-- The line of an `#else`. -/
structure Middle where
  indent : Blanks
  gap : Blanks

def Middle.line (m : Middle) : Text := m.indent.val ++ "#else".toList ++ m.gap.val

/-- The parts of a block. -/
structure Layout where
  lead : Text
  indent : Blanks
  /-- The tag with the blanks after it. -/
  condition : Text
  primary : Option Body
  otherwise : Option (Middle × Option Body)
  closing : Blanks

namespace Layout

def elseText : Option (Middle × Option Body) → Text
  | none => []
  | some (m, b) => m.line ++ '\n' :: bodyText b

/-- What follows the line of the `#if`. -/
def after (l : Layout) : Text :=
  bodyText l.primary ++ (elseText l.otherwise ++ (l.closing.val ++ "#endif".toList))

def text (l : Layout) : Text :=
  l.lead ++ (l.indent.val ++ ("#if ".toList ++ (l.condition ++ '\n' :: l.after)))

/-- The body under `#else`. -/
def alternate (l : Layout) : Option Body := l.otherwise.bind (·.2)

/-- The body under a branch, if there is one. -/
def chosen (l : Layout) : Branch → Option Body
  | .primary => l.primary
  | .alternate => l.alternate

/-- What takes the place of the block under a branch: the body with what stands before the block, or
nothing without a body. -/
def kept (l : Layout) (branch : Branch) : Text :=
  (l.chosen branch).elim [] fun b => l.lead ++ b.val

/-- The groups of a block. -/
def groups (l : Layout) : Groups :=
  (l.alternate.map fun b => (alternateGroup, b.val)).toList ++
    ((l.primary.map fun b => (primaryGroup, b.val)).toList ++ [(leadGroup, l.lead)])

end Layout

/-- One of the names, with blanks after it. -/
def Names (names : List Text) (condition : Text) : Prop :=
  ∃ n ∈ names, ∃ gap : Blanks, condition = n ++ gap.val

/-- The block may stand at `c`: it follows a newline or the start of the text, and its condition is
recognized. -/
structure Layout.Fits (names : List Text) (c : Cursor) (l : Layout) : Prop where
  lead : l.lead = [] ∧ c.previous = none ∨ l.lead = ['\n']
  condition : Names names l.condition

variable {c d : Cursor} {g h : Groups}

theorem matches_blanks : blanks.Matches c g d h ↔ (∃ b : Blanks, c.Leads b.val d) ∧ h = g := by
  rw [blanks, spaceOrTab, matches_star_set]
  constructor
  · intro ⟨⟨u, hu, hl⟩, hg⟩
    exact ⟨⟨⟨u, fun ch hch => has_spaceOrTab.mp (hu ch hch)⟩, hl⟩, hg⟩
  · intro ⟨⟨b, hl⟩, hg⟩
    exact ⟨⟨b.val, fun ch hch => has_spaceOrTab.mpr (b.property ch hch), hl⟩, hg⟩

theorem matches_lead : (Pattern.group leadGroup (.alt (.anchor .textStart .word) (.char '\n'))).Matches
      c g d h ↔
    ∃ u, (u = [] ∧ c.previous = none ∨ u = ['\n']) ∧ c.Leads u d ∧ h = (leadGroup, u) :: g := by
  constructor
  · intro ⟨h', hm, hh⟩
    rcases hm with ⟨ha, rfl, rfl⟩ | ⟨hl, rfl⟩
    · refine ⟨[], .inl ⟨rfl, Option.isNone_iff_eq_none.mp ha⟩, .refl d, ?_⟩
      rw [hh, (Cursor.Leads.refl d).textTo]
    · exact ⟨['\n'], .inr rfl, hl, by rw [hh, hl.textTo]⟩
  · intro ⟨u, hu, hl, hh⟩
    refine ⟨g, ?_, by rw [hh, hl.textTo]⟩
    rcases hu with ⟨rfl, hp⟩ | rfl
    · exact .inl ⟨Option.isNone_iff_eq_none.mpr hp, Cursor.leads_nil.mp hl, rfl⟩
    · exact .inr ⟨hl, rfl⟩

theorem matches_body {i : Nat} : (body i).Matches c g d h ↔ ∃ b : Option Body,
    c.Leads (bodyText b) d ∧ h = (b.map fun b => (i, b.val)).toList ++ g := by
  rw [body, matches_opt]
  constructor
  · intro hm
    rcases hm with ⟨rfl, rfl⟩ | ⟨e, _, ⟨h', hs, rfl⟩, hn, rfl⟩
    · exact ⟨none, .refl d, rfl⟩
    · obtain ⟨⟨u, hu, hl⟩, rfl⟩ := matches_star_set.mp hs
      have hfree : '#' ∉ u := fun hm => has_complement_one.mp (hu '#' hm) rfl
      refine ⟨some ⟨u, hfree⟩, hl.append hn, ?_⟩
      rw [hl.textTo]
      rfl
  · intro ⟨b, hl, hh⟩
    cases b with
    | none => exact .inl ⟨Cursor.leads_nil.mp hl, hh⟩
    | some b =>
        obtain ⟨e, hb, hn⟩ := Cursor.leads_append.mp hl
        have hall : ∀ ch ∈ b.val, (CharSet.complement (.one '#')).has ch := fun ch hch =>
          has_complement_one.mpr (ne_of_mem_of_not_mem hch b.property)
        refine .inr ⟨e, (i, c.textTo e) :: g, ⟨g, matches_star_set.mpr ⟨⟨_, hall, hb⟩, rfl⟩, rfl⟩,
          hn, ?_⟩
        rw [hh, hb.textTo]
        rfl

theorem matches_else : (opt (chain [blanks, literal "#else", blanks, .char '\n',
      body alternateGroup])).Matches c g d h ↔ ∃ o : Option (Middle × Option Body),
    c.Leads (Layout.elseText o) d ∧
      h = ((o.bind (·.2)).map fun b => (alternateGroup, b.val)).toList ++ g := by
  rw [matches_opt]
  constructor
  · intro hm
    rcases hm with ⟨rfl, rfl⟩ | ⟨e₁, _, h₁, e₂, _, h₂, e₃, _, h₃, e₄, _, ⟨h₄, rfl⟩, h₅⟩
    · exact ⟨none, .refl d, rfl⟩
    · obtain ⟨⟨indent, l₁⟩, rfl⟩ := matches_blanks.mp h₁
      obtain ⟨l₂, rfl⟩ := matches_literal.mp h₂
      obtain ⟨⟨gap, l₃⟩, rfl⟩ := matches_blanks.mp h₃
      obtain ⟨b, l₅, rfl⟩ := matches_body.mp h₅
      exact ⟨some (⟨indent, gap⟩, b), ((l₁.append l₂).append l₃).append (h₄.append l₅), rfl⟩
  · intro ⟨o, hl, hh⟩
    cases o with
    | none => exact .inl ⟨Cursor.leads_nil.mp hl, hh⟩
    | some o =>
        obtain ⟨m, b⟩ := o
        obtain ⟨e₃, hm, hl⟩ := Cursor.leads_append.mp hl
        obtain ⟨e₂, hm, h₃⟩ := Cursor.leads_append.mp hm
        obtain ⟨e₁, h₁, h₂⟩ := Cursor.leads_append.mp hm
        obtain ⟨e₄, h₄, h₅⟩ := Cursor.leads_append.mp (show e₃.Leads (['\n'] ++ bodyText b) d from hl)
        exact .inr ⟨e₁, g, matches_blanks.mpr ⟨⟨m.indent, h₁⟩, rfl⟩, e₂, g,
          matches_literal.mpr ⟨h₂, rfl⟩, e₃, g, matches_blanks.mpr ⟨⟨m.gap, h₃⟩, rfl⟩, e₄, g,
          ⟨h₄, rfl⟩, matches_body.mpr ⟨b, h₅, hh⟩⟩

/-- What the pattern of a block matches is laid out as one, whatever the tag, if the tag records nothing. -/
theorem layout_of_matches {tag : Pattern} (htag : tag.Silent) (hm : (pattern tag).Matches c [] d h) :
    ∃ l : Layout, (l.lead = [] ∧ c.previous = none ∨ l.lead = ['\n']) ∧
      (∃ e e' g n, ∃ gap : Blanks, tag.Matches e g e' g ∧ e.Leads n e' ∧ l.condition = n ++ gap.val) ∧
      c.Leads l.text d ∧ h = l.groups := by
  obtain ⟨e₁, _, h₁, e₂, _, h₂, e₃, _, h₃, e₄, _, h₄, e₅, _, h₅, e₆, _, ⟨h₆, rfl⟩, e₇, _, h₇,
    e₈, _, h₈, e₉, _, h₉, h₁₀⟩ := hm
  obtain ⟨lead, hlead, l₁, rfl⟩ := matches_lead.mp h₁
  obtain ⟨⟨indent, l₂⟩, rfl⟩ := matches_blanks.mp h₂
  obtain ⟨l₃, rfl⟩ := matches_literal.mp h₃
  obtain rfl := htag h₄
  obtain ⟨n, l₄⟩ := tag.matches_regular.leads h₄
  obtain ⟨⟨gap, l₅⟩, rfl⟩ := matches_blanks.mp h₅
  obtain ⟨primary, l₇, rfl⟩ := matches_body.mp h₇
  obtain ⟨otherwise, l₈, rfl⟩ := matches_else.mp h₈
  obtain ⟨⟨closing, l₉⟩, rfl⟩ := matches_blanks.mp h₉
  obtain ⟨l₁₀, rfl⟩ := matches_literal.mp h₁₀
  exact ⟨⟨lead, indent, n ++ gap.val, primary, otherwise, closing⟩, hlead,
    ⟨e₃, e₄, _, n, gap, h₄, l₄, rfl⟩, l₁.append (l₂.append (l₃.append ((l₄.append l₅).append
      (h₆.append (l₇.append (l₈.append (l₉.append l₁₀))))))), rfl⟩

/-- The tag matches exactly the names and records nothing. -/
def Spells (tag : Pattern) (names : List Text) : Prop :=
  ∀ {c d g h}, tag.Matches c g d h ↔ (∃ n ∈ names, c.Leads n d) ∧ h = g

/-- The pattern of a block matches the texts that are laid out as one. -/
theorem matches_pattern {tag : Pattern} {names : List Text} (htag : Spells tag names) :
    (pattern tag).Matches c [] d h ↔
      ∃ l : Layout, l.Fits names c ∧ c.Leads l.text d ∧ h = l.groups := by
  constructor
  · intro hm
    obtain ⟨l, hlead, ⟨e, e', g, n, gap, htm, hn, hcondition⟩, hl, hh⟩ :=
      layout_of_matches (fun hm => (htag.mp hm).2) hm
    obtain ⟨⟨n', hn', hln⟩, -⟩ := htag.mp htm
    obtain rfl := hn.text_unique hln
    exact ⟨l, ⟨hlead, n, hn', gap, hcondition⟩, hl, hh⟩
  · intro ⟨l, hfit, hl, hh⟩
    obtain ⟨n, hn, gap, hgap⟩ := hfit.condition
    rw [Layout.text, hgap] at hl
    obtain ⟨e₁, h₁, hl⟩ := Cursor.leads_append.mp hl
    obtain ⟨e₂, h₂, hl⟩ := Cursor.leads_append.mp hl
    obtain ⟨e₃, h₃, hl⟩ := Cursor.leads_append.mp hl
    obtain ⟨e₅, hc, hl⟩ := Cursor.leads_append.mp hl
    obtain ⟨e₄, h₄, h₅⟩ := Cursor.leads_append.mp hc
    obtain ⟨e₆, h₆, hl⟩ := Cursor.leads_append.mp (show e₅.Leads (['\n'] ++ l.after) d from hl)
    obtain ⟨e₇, h₇, hl⟩ := Cursor.leads_append.mp hl
    obtain ⟨e₈, h₈, hl⟩ := Cursor.leads_append.mp hl
    obtain ⟨e₉, h₉, h₁₀⟩ := Cursor.leads_append.mp hl
    exact ⟨e₁, _, matches_lead.mpr ⟨l.lead, hfit.lead, h₁, rfl⟩,
      e₂, _, matches_blanks.mpr ⟨⟨l.indent, h₂⟩, rfl⟩, e₃, _, matches_literal.mpr ⟨h₃, rfl⟩,
      e₄, _, htag.mpr ⟨⟨n, hn, h₄⟩, rfl⟩, e₅, _, matches_blanks.mpr ⟨⟨gap, h₅⟩, rfl⟩,
      e₆, _, ⟨h₆, rfl⟩, e₇, _, matches_body.mpr ⟨l.primary, h₇, rfl⟩,
      e₈, _, matches_else.mpr ⟨l.otherwise, h₈, rfl⟩,
      e₉, _, matches_blanks.mpr ⟨⟨l.closing, h₉⟩, rfl⟩, matches_literal.mpr ⟨h₁₀, hh⟩⟩

/-! ## There is one layout for a text -/

/-- The number sign of a marker is the first one after a body. -/
theorem bodyText_free (b : Option Body) (u : Blanks) : '#' ∉ bodyText b ++ u.val := by
  have hu : '#' ∉ u.val := u.not_mem (by decide)
  cases b with
  | none => simpa [bodyText] using hu
  | some b => simpa [bodyText, hu] using b.property

theorem bodyText_inj {b b' : Option Body} {u u' : Blanks}
    (h : bodyText b ++ u.val = bodyText b' ++ u'.val) : b = b' ∧ u = u' := by
  have hu : '\n' ∉ u.val := u.not_mem (by decide)
  have hu' : '\n' ∉ u'.val := u'.not_mem (by decide)
  cases b with
  | none =>
      cases b' with
      | none => exact ⟨rfl, Subtype.ext h⟩
      | some b' => exact absurd (h ▸ hu : '\n' ∉ bodyText (some b') ++ u'.val) (by simp [bodyText])
  | some b =>
      cases b' with
      | none => exact absurd (h ▸ hu' : '\n' ∉ bodyText (some b) ++ u.val) (by simp [bodyText])
      | some b' =>
          simp only [bodyText, List.append_assoc, List.singleton_append] at h
          obtain ⟨hb, hu⟩ := Text.cut_last hu hu' h
          exact ⟨congrArg some (Subtype.ext hb), Subtype.ext hu⟩

/-- The first marker after a body is determined. -/
theorem cut_marker {b : Option Body} {u : Blanks} {a x y : Text} (ha : '#' ∉ a)
    (h : bodyText b ++ (u.val ++ '#' :: x) = a ++ '#' :: y) : bodyText b ++ u.val = a ∧ x = y :=
  Text.cut_first (bodyText_free b u) ha (by rw [List.append_assoc]; exact h)

theorem cut_body {b b' : Option Body} {u u' : Blanks} {x x' : Text}
    (h : bodyText b ++ (u.val ++ '#' :: x) = bodyText b' ++ (u'.val ++ '#' :: x')) :
    b = b' ∧ u = u' ∧ x = x' := by
  rw [← List.append_assoc (bodyText b')] at h
  obtain ⟨hb, hx⟩ := cut_marker (bodyText_free b' u') h
  obtain ⟨hb, hu⟩ := bodyText_inj hb
  exact ⟨hb, hu, hx⟩

namespace Layout

variable {l l' : Layout} {s s' : Text}

theorem after_single (h : l.otherwise = none) :
    l.after ++ s = bodyText l.primary ++ (l.closing.val ++ '#' :: ("endif".toList ++ s)) := by
  simp [after, h, elseText]

theorem after_double {m : Middle} {b : Option Body} (h : l.otherwise = some (m, b)) :
    l.after ++ s = bodyText l.primary ++ (m.indent.val ++ '#' :: ("else".toList ++ (m.gap.val ++
      '\n' :: (bodyText b ++ (l.closing.val ++ '#' :: ("endif".toList ++ s)))))) := by
  simp [after, h, elseText, Middle.line]

theorem after_unique (h : l.after ++ s = l'.after ++ s') :
    l.primary = l'.primary ∧ l.otherwise = l'.otherwise ∧ l.closing = l'.closing ∧ s = s' := by
  cases ho : l.otherwise with
  | none =>
      rw [after_single ho] at h
      cases ho' : l'.otherwise with
      | none =>
          rw [after_single ho'] at h
          obtain ⟨hp, hc, hs⟩ := cut_body h
          exact ⟨hp, rfl, hc, List.append_cancel_left hs⟩
      | some o' =>
          rw [after_double ho'] at h
          obtain ⟨-, -, hs⟩ := cut_body h
          simp at hs
  | some o =>
      rw [after_double ho] at h
      cases ho' : l'.otherwise with
      | none =>
          rw [after_single ho'] at h
          obtain ⟨-, -, hs⟩ := cut_body h
          simp at hs
      | some o' =>
          rw [after_double ho'] at h
          obtain ⟨hp, hi, hs⟩ := cut_body h
          obtain ⟨hg, hr⟩ := Text.cut_first (o.1.gap.not_mem (by decide)) (o'.1.gap.not_mem (by decide))
            (List.append_cancel_left hs)
          obtain ⟨hb, hc, he⟩ := cut_body hr
          obtain ⟨⟨i, g⟩, b⟩ := o
          obtain ⟨⟨i', g'⟩, b'⟩ := o'
          obtain rfl : i = i' := hi
          obtain rfl : g = g' := Subtype.ext hg
          obtain rfl : b = b' := hb
          exact ⟨hp, rfl, hc, List.append_cancel_left he⟩

/-- The parts of a block that a line of text begins: the line is that of the `#if`, and what comes after
it is the rest of the block. -/
theorem cut_line {names : List Text} (hnames : ∀ n ∈ names, '\n' ∉ n)
    (hcondition : Names names l.condition) {line t : Text} (hline : '\n' ∉ line)
    (ht : t = [] ∨ ∃ t', t = '\n' :: t') (h : l.lead ++ (line ++ t) = l.text ++ s) :
    line = l.indent.val ++ ("#if ".toList ++ l.condition) ∧ t = '\n' :: (l.after ++ s) := by
  have hsingle : '\n' ∉ l.indent.val ++ ("#if ".toList ++ l.condition) := by
    obtain ⟨n, hn, gap, hgap⟩ := hcondition
    simp [hgap, hnames n hn, gap.not_mem, l.indent.not_mem]
  rw [text, List.append_assoc] at h
  have h : line ++ t = (l.indent.val ++ ("#if ".toList ++ l.condition)) ++ '\n' :: (l.after ++ s) := by
    simpa using List.append_cancel_left h
  rcases ht with rfl | ⟨t', rfl⟩
  · rw [List.append_nil] at h
    exact absurd (h ▸ hline) (by simp)
  · obtain ⟨hl, hr⟩ := Text.cut_first hline hsingle h
    exact ⟨hl, congrArg _ hr⟩

/-- There is only one block that a text begins with. -/
theorem unique {names : List Text} (hnames : ∀ n ∈ names, '\n' ∉ n) (hl : Names names l.condition)
    (hl' : Names names l'.condition) (hlead : l.lead = l'.lead) (h : l.text ++ s = l'.text ++ s') :
    l = l' ∧ s = s' := by
  have hline : '\n' ∉ l.indent.val ++ ("#if ".toList ++ l.condition) := by
    obtain ⟨n, hn, gap, hgap⟩ := hl
    simp [hgap, hnames n hn, gap.not_mem, l.indent.not_mem]
  have htext : l'.lead ++ (l.indent.val ++ ("#if ".toList ++ l.condition) ++
      '\n' :: (l.after ++ s)) = l'.text ++ s' := by
    rw [← h, text, hlead]
    simp
  obtain ⟨hopen, hafter⟩ := cut_line hnames hl' hline (.inr ⟨_, rfl⟩) htext
  obtain ⟨hindent, hmark⟩ := Text.cut_first (l.indent.not_mem (by decide)) (l'.indent.not_mem (by decide))
    (show l.indent.val ++ '#' :: ("if ".toList ++ l.condition) =
      l'.indent.val ++ '#' :: ("if ".toList ++ l'.condition) from hopen)
  have hcondition := List.append_cancel_left hmark
  obtain ⟨hprimary, hotherwise, hclosing, hs⟩ := after_unique (List.cons.inj hafter).2
  obtain ⟨lead, indent, condition, primary, otherwise, closing⟩ := l
  obtain ⟨lead', indent', condition', primary', otherwise', closing'⟩ := l'
  obtain rfl : lead = lead' := hlead
  obtain rfl : indent = indent' := Subtype.ext hindent
  obtain rfl : condition = condition' := hcondition
  obtain rfl : primary = primary' := hprimary
  obtain rfl : otherwise = otherwise' := hotherwise
  obtain rfl : closing = closing' := hclosing
  exact ⟨rfl, hs⟩

end Layout

end Block

end Crosscheck
