import Crosscheck.Proofs.Conditional.Padding
import Crosscheck.Text.WordChar
import Mathlib.Data.List.Flatten
/-!
# Number signs in bodies

A complete block with a recognized condition gives way to the body that the branch keeps just when no line of
its bodies has a number sign, in any surroundings. With one in any of its bodies, also in the one that the
branch drops, the block stays as it is with all its markers, even if no line of a body is a directive.
-/

namespace Crosscheck

open Relation

namespace Block

/-! ## Directives -/

/-- What stands after the number sign of a directive. `#endif` closes a block whatever comes after it; no word
goes on after the others. -/
def isKeyword (s : Text) : Bool :=
  "endif".toList.isPrefixOf s ||
    ["if".toList, "else".toList, "elseif".toList].any fun word =>
      match Text.after? word s with
      | some rest => !rest.head?.any Text.isWord
      | none => false

/-- Whether a line is a directive: a number sign and a keyword, perhaps with blanks before them. -/
def isDirective (line : Text) : Bool :=
  match line.dropWhile fun c => c = ' ' || c = '\t' with
  | '#' :: rest => isKeyword rest
  | _ => false

theorem isDirective_append (indent : Blanks) (s : Text) :
    isDirective (indent.val ++ '#' :: s) = isKeyword s := by
  rw [isDirective, List.dropWhile_append_of_pos]
  · rfl
  · exact fun c hc => by simpa using indent.property c hc

theorem isKeyword_endif (s : Text) : isKeyword ("endif".toList ++ s) := by
  rw [isKeyword, Bool.or_eq_true]
  exact .inl (List.isPrefixOf_iff_prefix.mpr (List.prefix_append _ s))

theorem isKeyword_word {word s : Text} (hword : word ∈ ["if".toList, "else".toList, "elseif".toList])
    (hs : s.head?.any Text.isWord = false) : isKeyword (word ++ s) := by
  have hafter : Text.after? word (word ++ s) = some s := List.isPrefixOf?_eq_some_iff_append_eq.mpr rfl
  rw [isKeyword, Bool.or_eq_true, List.any_eq_true]
  refine .inr ⟨word, hword, ?_⟩
  rw [hafter]
  simp [hs]

theorem isKeyword_if (s : Text) : isKeyword ("if ".toList ++ s) := by
  have hspace : (' ' :: s).head?.any Text.isWord = false := by
    rw [List.head?_cons, Option.any_some]
    decide
  change isKeyword ("if".toList ++ ' ' :: s)
  exact isKeyword_word List.mem_cons_self hspace

theorem isKeyword_else (gap : Blanks) : isKeyword ("else".toList ++ gap.val) := by
  refine isKeyword_word (by simp) ?_
  cases hgap : gap.val with
  | nil => rfl
  | cons c s =>
      rcases gap.property c (by simp [hgap]) with rfl | rfl <;> simp <;> decide

/-- A line of a body. -/
structure BodyLine where
  text : Text
  single : '\n' ∉ text
  undirected : isDirective text = false

theorem BodyLine.not_keyword (line : BodyLine) {indent : Blanks} {s : Text}
    (h : line.text = indent.val ++ '#' :: s) : ¬ isKeyword s := by
  rw [← isDirective_append indent, ← h, line.undirected]
  exact Bool.false_ne_true

end Block

open Block

/-- A block with a recognized condition and all its markers, and any lines but directives in its bodies. -/
structure CompleteBlock (names : List Text) where
  tag : {n // n ∈ names}
  opening : Padding
  primary : List BodyLine
  /-- The `#else` and the body under it. -/
  otherwise : Option (Padding × List BodyLine)
  closing : Blanks

namespace CompleteBlock

variable {names : List Text}

def alternate (b : CompleteBlock names) : List BodyLine := (b.otherwise.map (·.2)).getD []

/-- The lines between the first marker and the last one. -/
def inner (b : CompleteBlock names) : List Text :=
  b.primary.map (·.text) ++
    (b.otherwise.map fun (m, body) => m.line "#else" :: body.map (·.text)).getD []

/-- The lines as they are written. -/
def lines (b : CompleteBlock names) : List Text :=
  b.opening.line ("#if ".toList ++ b.tag.val) :: (b.inner ++ [closingLine b.closing])

/-- The lines of the body that the branch keeps. -/
def selected (b : CompleteBlock names) (branch : Branch) : List Text :=
  (branch.pick b.primary b.alternate).map (·.text)

/-- The lines, each after a line break. -/
def text (b : CompleteBlock names) : Text := b.lines.flatMap ('\n' :: ·)

/-- No line of a body has a number sign. -/
def Unmarked (b : CompleteBlock names) : Prop := ∀ line ∈ b.primary ++ b.alternate, '#' ∉ line.text

instance (b : CompleteBlock names) : Decidable b.Unmarked :=
  inferInstanceAs (Decidable (∀ _ ∈ _, _))

end CompleteBlock

namespace Block

/-! ## Markers among lines -/

/-- Lines ended by line breaks, where a line break stands before them. -/
theorem flatMap_newline (ls : List Text) (s : Text) :
    ls.flatMap ('\n' :: ·) ++ '\n' :: s = '\n' :: (ls.flatMap (· ++ ['\n']) ++ s) := by
  induction ls with
  | nil => rfl
  | cons line ls ih => simp [ih]

/-- The marker of an `#else` or an `#endif` is not the one of an `#if`. -/
theorem marker_ne {indent indent' : Blanks} {s s' : Text} :
    indent.val ++ '#' :: 'e' :: s ≠ indent'.val ++ '#' :: 'i' :: s' := by
  intro h
  obtain ⟨-, hmark⟩ := Text.cut_first (indent.not_mem (by decide)) (indent'.not_mem (by decide)) h
  cases hmark

/-- A line that does not open a block is passed over whole. -/
theorem pass_line {line s b x : Text} (hline : '\n' ∉ line) (hno : line ++ s ≠ x)
    (h : '\n' :: (line ++ s) = b ++ '\n' :: x) : ∃ b', b = '\n' :: (line ++ b') ∧ s = b' ++ '\n' :: x := by
  cases b with
  | nil => exact absurd (List.cons.inj h).2 hno
  | cons d b =>
      obtain ⟨rfl, hrest⟩ := List.cons.inj h
      obtain ⟨b', rfl, hs⟩ := pass_free hline hrest
      exact ⟨b', rfl, hs⟩

/-- The line does not open a block, whatever follows it. -/
def Shut (line : Text) : Prop :=
  '\n' ∉ line ∧ ∀ (indent : Blanks) s x, line ++ '\n' :: s ≠ indent.val ++ '#' :: ("if ".toList ++ x)

theorem BodyLine.shut (line : BodyLine) : Shut line.text := by
  refine ⟨line.single, fun indent s x h => ?_⟩
  have hmark : '\n' ∉ indent.val ++ "#if ".toList := by simp [indent.not_mem]
  have hopen : (indent.val ++ "#if ".toList) ++ x = line.text ++ '\n' :: s := by simp [h]
  obtain ⟨b, hb, -⟩ := pass_free hmark hopen
  have htext : line.text = indent.val ++ '#' :: ("if ".toList ++ b) := by simp [hb]
  exact line.not_keyword htext (isKeyword_if b)

theorem shut_else (m : Padding) : Shut (m.line "#else") := by
  refine ⟨by simp [Padding.line, m.before.not_mem, m.after.not_mem], fun indent s x h => ?_⟩
  exact marker_ne (by simpa [Padding.line] using h)

/-- An `#if` stands behind lines that do not open a block. -/
theorem pass_lines {ls : List Text} (hls : ∀ line ∈ ls, Shut line) {s b x : Text} {indent : Blanks}
    (h : ls.flatMap ('\n' :: ·) ++ '\n' :: s = b ++ '\n' :: (indent.val ++ '#' :: ("if ".toList ++ x))) :
    ∃ b', b = ls.flatMap ('\n' :: ·) ++ b' ∧
      '\n' :: s = b' ++ '\n' :: (indent.val ++ '#' :: ("if ".toList ++ x)) := by
  induction ls generalizing b with
  | nil => exact ⟨b, rfl, h⟩
  | cons line ls ih =>
      obtain ⟨hline, hrest⟩ := List.forall_mem_cons.mp hls
      have hno : line ++ (ls.flatMap ('\n' :: ·) ++ '\n' :: s) ≠
          indent.val ++ '#' :: ("if ".toList ++ x) := by
        rw [flatMap_newline]
        exact hline.2 indent _ x
      obtain ⟨b₁, rfl, h₁⟩ := pass_line hline.1 hno (by simpa using h)
      obtain ⟨b₂, rfl, h₂⟩ := ih hrest h₁
      exact ⟨b₂, by simp, h₂⟩

/-- The first marker among lines with number signs is one of the lines. The text before it is empty or ends
with a line break. -/
theorem marker_in_lines {ls : List Text} (hls : ∃ line ∈ ls, '#' ∈ line) {a s x : Text} {indent : Blanks}
    (hsingle : ∀ line ∈ ls, '\n' ∉ line) (hfree : '#' ∉ a) (hlast : ∀ c ∈ a.getLast?, c = '\n')
    (h : a ++ (indent.val ++ '#' :: x) = ls.flatMap (· ++ ['\n']) ++ s) :
    ∃ y s', indent.val ++ '#' :: y ∈ ls ∧ x = y ++ '\n' :: s' := by
  induction ls generalizing a with
  | nil => simp at hls
  | cons line ls ih =>
      obtain ⟨hline, hrest⟩ := List.forall_mem_cons.mp hsingle
      have hbefore : '#' ∉ a ++ indent.val := by simp [hfree, indent.not_mem]
      have hfirst : (a ++ indent.val) ++ '#' :: x = line ++ '\n' :: (ls.flatMap (· ++ ['\n']) ++ s) := by
        simpa using h
      by_cases hmark : '#' ∈ line
      · obtain ⟨q, y, rfl, hq⟩ := List.eq_append_cons_of_mem hmark
        obtain ⟨hplace, hx⟩ := Text.cut_first hbefore hq (hfirst.trans (List.append_assoc q _ _))
        -- nothing stands before the blanks, because a line break would be in the line
        have hnil : a = [] := by
          rcases List.eq_nil_or_concat a with ha | ⟨a', c, rfl⟩
          · exact ha
          · obtain rfl : c = '\n' := hlast c (by simp)
            exact absurd (by simp [← hplace]) hline
        refine ⟨y, _, ?_, hx⟩
        rw [← hplace, hnil]
        exact List.mem_cons_self
      · obtain ⟨b, hb, hline'⟩ := pass_free hmark hfirst.symm
        cases b with
        | nil => cases hline'
        | cons c b =>
            obtain ⟨rfl, hlines⟩ := List.cons.inj hline'
            obtain ⟨a', rfl, rfl⟩ := pass_free_end (indent.not_mem (by decide)) hb
            have hmarked : ∃ line ∈ ls, '#' ∈ line := by simpa [hmark] using hls
            have hfree' : '#' ∉ a' := fun hm => hfree (by simp [hm])
            have hlast' : ∀ c ∈ a'.getLast?, c = '\n' := fun c hc =>
              hlast c (by simp [List.getLast?_append, List.getLast?_cons, Option.mem_def.mp hc])
            obtain ⟨y, s', hy, hx⟩ := ih hmarked hrest hfree' hlast' (by simpa using hlines.symm)
            exact ⟨y, s', List.mem_cons_of_mem _ hy, hx⟩

theorem getLast?_bodyText (p : Option Body) : ∀ c ∈ (bodyText p).getLast?, c = '\n' := by
  cases p <;> simp [bodyText]

/-- The first marker among lines that are not directives is neither `#else` nor `#endif`. -/
theorem marker_ne_of_undirected {ls : List BodyLine} (hls : ∃ line ∈ ls, '#' ∈ line.text) {p : Option Body}
    {indent : Blanks} {s x : Text}
    (h : bodyText p ++ (indent.val ++ '#' :: x) = (ls.map (·.text)).flatMap (· ++ ['\n']) ++ s) :
    (∀ y, x ≠ "endif".toList ++ y) ∧ ∀ (gap : Blanks) y, x ≠ "else".toList ++ (gap.val ++ '\n' :: y) := by
  have hbody : '#' ∉ bodyText p := fun hm => bodyText_free p indent (List.mem_append_left _ hm)
  have hsingle : ∀ line ∈ ls.map (·.text), '\n' ∉ line :=
    List.forall_mem_map.mpr fun line _ => line.single
  obtain ⟨y, s', hy, rfl⟩ := marker_in_lines (by simpa using hls) hsingle hbody (getLast?_bodyText p) h
  obtain ⟨line, -, hline⟩ := List.mem_map.mp hy
  refine ⟨fun z hz => ?_, fun gap z hz => ?_⟩
  · obtain ⟨y', rfl, -⟩ := pass_free (by decide) hz.symm
    exact line.not_keyword hline (isKeyword_endif y')
  · have hy' : '\n' ∉ y := fun hm => line.single (by simp [hline, hm])
    have hword : '\n' ∉ "else".toList ++ gap.val := by simp [gap.not_mem]
    obtain ⟨rfl, -⟩ := Text.cut_first hy' hword (hz.trans (List.append_assoc _ _ _).symm)
    exact line.not_keyword hline (isKeyword_else gap)

/-- Lines without number signs are a body, or none. -/
theorem exists_placed {ls : List Text} (h : ∀ line ∈ ls, '#' ∉ line) :
    ∃ p : Option Body, placed ['\n'] p = ls.flatMap ('\n' :: ·) := by
  cases ls with
  | nil => exact ⟨none, rfl⟩
  | cons line ls =>
      have hfree : '#' ∉ line ++ ls.flatMap ('\n' :: ·) := by
        simpa using ⟨h line List.mem_cons_self, fun l hl => h l (List.mem_cons_of_mem _ hl)⟩
      exact ⟨some ⟨_, hfree⟩, by simp [placed]⟩

end Block

namespace CompleteBlock

variable {names : List Text} {b : CompleteBlock names} {s : Text}

/-- Everything behind the line of the `#if`, and what follows the block. -/
def tail (b : CompleteBlock names) (s : Text) : Text :=
  b.inner.flatMap ('\n' :: ·) ++ '\n' :: (b.closing.val ++ '#' :: ("endif".toList ++ s))

theorem text_append : b.text ++ s = '\n' :: (b.opening.before.val ++ '#' ::
    ("if ".toList ++ (b.tag.val ++ (b.opening.after.val ++ b.tail s)))) := by
  simp [text, lines, tail, closingLine, Padding.line]

/-- No block is laid out behind the line of the `#if` if a line of a body has a number sign. -/
theorem tail_ne (h : ¬ b.Unmarked) (l : Layout) (s' : Text) : b.tail s ≠ '\n' :: (l.after ++ s') := by
  intro heq
  rw [tail, flatMap_newline, List.cons_inj_right, inner, List.flatMap_append, List.append_assoc] at heq
  by_cases hprimary : ∃ line ∈ b.primary, '#' ∈ line.text
  · cases ho : l.otherwise with
    | none =>
        rw [Layout.after_single ho] at heq
        exact (marker_ne_of_undirected hprimary heq.symm).1 _ rfl
    | some o =>
        rw [Layout.after_double ho] at heq
        exact (marker_ne_of_undirected hprimary heq.symm).2 o.1.gap _ rfl
  · obtain ⟨m, body, hotherwise, hbody⟩ : ∃ m body, b.otherwise = some (m, body) ∧
        ∃ line ∈ body, '#' ∈ line.text := by
      rw [Unmarked] at h
      push Not at h hprimary
      obtain ⟨line, hline, hmark⟩ := h
      rcases List.mem_append.mp hline with hline | hline
      · exact absurd hmark (hprimary line hline)
      · cases ho : b.otherwise with
        | none => simp [alternate, ho] at hline
        | some o => exact ⟨o.1, o.2, rfl, line, by simpa [alternate, ho] using hline, hmark⟩
    have hfree : '#' ∉ (b.primary.map (·.text)).flatMap (· ++ ['\n']) ++ m.before.val := by
      simpa [m.before.not_mem] using hprimary
    have helse : l.after ++ s' = ((b.primary.map (·.text)).flatMap (· ++ ['\n']) ++ m.before.val) ++
        '#' :: ("else".toList ++ (m.after.val ++ '\n' :: ((body.map (·.text)).flatMap (· ++ ['\n']) ++
          (b.closing.val ++ '#' :: ("endif".toList ++ s))))) := by
      rw [← heq]
      simp [hotherwise, Padding.line]
    cases ho : l.otherwise with
    | none =>
        rw [Layout.after_single ho] at helse
        obtain ⟨-, hmark⟩ := cut_marker hfree helse
        cases hmark
    | some o =>
        rw [Layout.after_double ho] at helse
        obtain ⟨-, hmark⟩ := cut_marker hfree helse
        obtain ⟨-, hrest⟩ := Text.cut_first (o.1.gap.not_mem (by decide)) (m.after.not_mem (by decide))
          (List.append_cancel_left hmark)
        exact (marker_ne_of_undirected hbody hrest).1 _ rfl

/-- Two blocks do not open at one place if a line of a body of the complete one has a number sign. -/
theorem before_ne (hnames : ∀ n ∈ names, '\n' ∉ n) (h : ¬ b.Unmarked) {l : Layout} {u u' v v' : Text}
    (hl : l.Between names u' v' (u ++ (b.text ++ v))) :
    l.before u' ≠ u ++ '\n' :: b.opening.before.val := by
  intro hb
  have hindent : '\n' ∉ l.indent.val := l.indent.not_mem (by decide)
  have htext := hl.text
  rw [Layout.before] at hb
  rcases hl.lead with ⟨hlead, rfl⟩ | hlead
  · rw [hlead] at hb
    exact hindent (by simp [show l.indent.val = _ from hb])
  · rw [hlead] at hb
    obtain ⟨rfl, -⟩ := Text.cut_last hindent (b.opening.before.not_mem (by decide)) hb
    have hopening : '\n' ∉ b.opening.line ("#if ".toList ++ b.tag.val) := by
      simp [Padding.line, b.opening.before.not_mem, b.opening.after.not_mem, hnames _ b.tag.property]
    have hrest : l.lead ++ (b.opening.line ("#if ".toList ++ b.tag.val) ++ b.tail v) = l.text ++ v' := by
      rw [← List.append_cancel_left htext, text_append, hlead]
      simp [Padding.line]
    obtain ⟨-, htail⟩ := Layout.cut_line hnames hl.condition hopening
      (.inr ⟨_, by rw [tail, flatMap_newline]⟩) hrest
    exact tail_ne h l v' htail

theorem inner_shut (b : CompleteBlock names) : ∀ line ∈ b.inner, Shut line := by
  have hbody (ls : List BodyLine) : ∀ line ∈ ls.map (·.text), Shut line :=
    List.forall_mem_map.mpr fun line _ => line.shut
  rw [inner, List.forall_mem_append]
  refine ⟨hbody b.primary, ?_⟩
  cases b.otherwise with
  | none => simp
  | some o => exact List.forall_mem_cons.mpr ⟨shut_else o.1, hbody o.2⟩

/-- What opens behind the `#if` of a complete block begins behind its `#endif`. -/
theorem begins_behind (hnames : ∀ n ∈ names, '\n' ∉ n) {l : Layout} {u u' v v' w : Text}
    (hl : l.Between names u' v' (u ++ (b.text ++ v)))
    (hb : l.before u' = (u ++ '\n' :: b.opening.before.val) ++ '#' :: w) :
    l.lead = ['\n'] ∧ ∃ k, u' = u ++ (b.text ++ k) ∧ v = k ++ (l.text ++ v') := by
  have hindent : '#' ∉ l.indent.val := l.indent.not_mem (by decide)
  rw [Layout.before] at hb
  rcases hl.lead with ⟨hlead, rfl⟩ | hlead
  · rw [hlead] at hb
    exact absurd (by simp [show l.indent.val = _ from hb]) hindent
  refine ⟨hlead, ?_⟩
  rw [hlead] at hb
  obtain ⟨w, rfl, -⟩ := pass_free_end (by simpa using hindent) hb
  have hopening : '\n' ∉ "if ".toList ++ (b.tag.val ++ b.opening.after.val) := by
    simp [b.opening.after.not_mem, hnames _ b.tag.property]
  have hblock : l.text ++ v' = '\n' :: (l.indent.val ++ '#' :: ("if ".toList ++
      (l.condition ++ '\n' :: (l.after ++ v')))) := by simp [Layout.text, hlead]
  have hline : ("if ".toList ++ (b.tag.val ++ b.opening.after.val)) ++ b.tail v =
      w ++ (l.text ++ v') := by
    have htext := hl.text
    rw [text_append] at htext
    simpa using htext
  rw [hblock] at hline
  obtain ⟨w₁, rfl, htail⟩ := pass_free hopening hline
  obtain ⟨w₂, rfl, hclosing⟩ := pass_lines b.inner_shut htail
  have hend : '\n' ∉ closingLine b.closing := by simp [closingLine, b.closing.not_mem]
  have hno : closingLine b.closing ++ v ≠ l.indent.val ++ '#' :: ("if ".toList ++
      (l.condition ++ '\n' :: (l.after ++ v'))) := fun h => marker_ne (by simpa [closingLine] using h)
  obtain ⟨k, rfl, hv⟩ := pass_line hend hno (by simpa [closingLine] using hclosing)
  refine ⟨k, ?_, by rw [hblock, hv]⟩
  simp [text, lines, Padding.line]

end CompleteBlock

/-! ## Steps around a text that stays -/

namespace Resolver

/-- A step in the end of a text, whatever stands before it. -/
def StepBehind (r : Resolver) (v v' : Text) : Prop := ∀ z, r.Step (z ++ v) (z ++ v')

/-- Every step from a text that holds `y` is one before it or behind it. -/
def Fixes (r : Resolver) (y : Text) : Prop := ∀ u v t, r.Step (u ++ (y ++ v)) t →
  (∃ u', r.Step u u' ∧ t = u' ++ (y ++ v)) ∨ ∃ v', r.StepBehind v v' ∧ t = u ++ (y ++ v')

variable {r : Resolver} {names : List Text} {u v u' v' y t : Text}

theorem Fixes.run (hy : r.Fixes y) (h : ReflTransGen r.Step (u ++ (y ++ v)) t) :
    ∃ u' v', ReflTransGen r.Step u u' ∧ ReflTransGen r.StepBehind v v' ∧ t = u' ++ (y ++ v') := by
  induction h with
  | refl => exact ⟨u, v, .refl, .refl, rfl⟩
  | tail _ hstep ih =>
      obtain ⟨u', v', hu, hv, rfl⟩ := ih
      rcases hy u' v' _ hstep with ⟨u'', hu', rfl⟩ | ⟨v'', hv', rfl⟩
      · exact ⟨u'', v', hu.tail hu', hv, rfl⟩
      · exact ⟨u', v'', hu, hv.tail hv', rfl⟩

namespace Recognizes

/-- What stands behind a text does not keep it from a step. -/
theorem step_append (hr : r.Recognizes names) (h : r.Step u u') (z : Text) : r.Step (u ++ z) (u' ++ z) := by
  obtain ⟨l, a, c, hl, rfl⟩ := hr.step_iff.mp h
  exact hr.step_iff.mpr ⟨l, a, c ++ z, ⟨by simp [hl.text], hl.lead, hl.condition⟩, by simp⟩

/-- Steps before and behind a place. -/
theorem steps_append (hr : r.Recognizes names) (hu : ReflTransGen r.Step u u')
    (hv : ReflTransGen r.StepBehind v v') (z : Text) :
    ReflTransGen r.Step (u ++ (z ++ v)) (u' ++ (z ++ v')) := by
  have hbefore := hu.lift (· ++ (z ++ v)) fun _ _ hstep => hr.step_append hstep (z ++ v)
  have hbehind := hv.lift (u' ++ z ++ ·) fun _ _ hstep => hstep (u' ++ z)
  exact hbefore.trans (by simpa using hbehind)

theorem fixes_of_marked (hr : r.Recognizes names) (hnames : ∀ n ∈ names, '#' ∉ n) {b : CompleteBlock names}
    (hb : ¬ b.Unmarked) : r.Fixes b.text := by
  have hboth : ∀ n ∈ names, '\n' ∉ n ∧ '#' ∉ n := fun n hn => ⟨hr.single n hn, hnames n hn⟩
  intro u v t ht
  obtain ⟨l, u', v', hl, rfl⟩ := hr.step_iff.mp ht
  have hopen : u ++ (b.text ++ v) = u ++ '\n' :: (b.opening.before.val ++ '#' :: 'i' ::
      ("f ".toList ++ (b.tag.val ++ (b.opening.after.val ++ b.tail v)))) := by
    rw [b.text_append]
    rfl
  have hmarks : (u ++ '\n' :: b.opening.before.val) ++ '#' :: ("if ".toList ++
      (b.tag.val ++ (b.opening.after.val ++ b.tail v))) =
        l.before u' ++ '#' :: ("if ".toList ++ (l.condition ++ '\n' :: (l.after ++ v'))) := by
    rw [← Layout.text_eq_before, ← hl.text, hopen]
    simp
  -- the first marker of the block behind, at, or before that of the complete one
  rcases List.append_eq_append_iff.mp hmarks with ⟨w, hw, hrest⟩ | ⟨w, hw, hrest⟩
  · cases w with
    | nil => exact absurd (by simpa using hw) (CompleteBlock.before_ne hr.single hb hl)
    | cons c w =>
        obtain ⟨rfl, -⟩ := List.cons.inj hrest
        obtain ⟨hlead, k, rfl, rfl⟩ := CompleteBlock.begins_behind hr.single hl hw
        refine .inr ⟨k ++ (l.kept r.branch ++ v'), fun z => ?_, by simp⟩
        exact hr.step_iff.mpr ⟨l, z ++ k, v', ⟨by simp, .inr hlead, hl.condition⟩, by simp⟩
  · cases w with
    | nil => exact absurd (by simpa using hw.symm) (CompleteBlock.before_ne hr.single hb hl)
    | cons c w =>
        obtain ⟨rfl, -⟩ := List.cons.inj hrest
        obtain ⟨k, rfl, hv⟩ := hl.ends_before hboth hopen hw
        refine .inl ⟨u' ++ (l.kept r.branch ++ k), ?_, ?_⟩
        · exact hr.step_iff.mpr ⟨l, u', k, ⟨rfl, hl.lead, hl.condition⟩, rfl⟩
        · rw [b.text_append, hv]
          simp

/-- What stands before a text that is fixed is resolved on its own, and so is the text with what stands
behind it. -/
theorem resolve_of_fixes (hr : r.Recognizes names) (hnames : ∀ n ∈ names, '#' ∉ n) (hy : r.Fixes y)
    (u v : Text) : ∃ v', ReflTransGen r.StepBehind v v' ∧ r.resolve (y ++ v) = y ++ v' ∧
      r.resolve (u ++ (y ++ v)) = r.resolve u ++ (y ++ v') := by
  obtain ⟨u', v', hu, hv, heq⟩ := hy.run (hr.steps_resolve (u ++ (y ++ v)))
  have hstuck := absent_iff.mp (heq ▸ hr.takesBlocks.absent_resolve (u ++ (y ++ v)))
  have hbefore : r.block.Absent u' := absent_iff.mpr fun x hx => hstuck _ (hr.step_append hx _)
  have hbehind : r.block.Absent (y ++ v') := by
    refine absent_iff.mpr fun x hx => ?_
    rcases hy [] v' x hx with ⟨u'', hnil, -⟩ | ⟨v'', hstep, -⟩
    · exact absent_iff.mp (hr.absent_of_free List.not_mem_nil) u'' hnil
    · exact hstuck _ (by simpa using hstep (u' ++ y))
  have hu' : r.resolve u = u' := by
    rw [← hr.resolve_of_steps hnames hu, hr.takesBlocks.resolve_of_absent hbefore]
  have hv' : r.resolve (y ++ v) = y ++ v' := by
    have hsteps := hr.steps_append (.refl (a := [])) hv y
    rw [← hr.takesBlocks.resolve_of_absent hbehind]
    exact (hr.resolve_of_steps hnames hsteps).symm
  exact ⟨v', hv, hv', by rw [heq, hu']⟩

/-- Any block whose bodies have no number sign gives way to the lines of the body that the branch keeps. -/
theorem step_of_unmarked (hr : r.Recognizes names) {b : CompleteBlock names} (hb : b.Unmarked) (u v : Text) :
    r.Step (u ++ (b.text ++ v)) (u ++ ((b.selected r.branch).flatMap ('\n' :: ·) ++ v)) := by
  have hbody (ls : List BodyLine) (h : ∀ line ∈ ls, line ∈ b.primary ++ b.alternate) :
      ∃ p : Option Body, placed ['\n'] p = (ls.map (·.text)).flatMap ('\n' :: ·) :=
    exists_placed (List.forall_mem_map.mpr fun line hline => hb line (h line hline))
  obtain ⟨p, hp⟩ := hbody b.primary fun _ => List.mem_append_left _
  have hkept {a : Option Body} (ha : placed ['\n'] a = (b.alternate.map (·.text)).flatMap ('\n' :: ·)) :
      placed ['\n'] (r.branch.pick p a) = (b.selected r.branch).flatMap ('\n' :: ·) := by
    rw [CompleteBlock.selected]
    cases r.branch with
    | primary => exact hp
    | alternate => exact ha
  have hlead : ['\n'] = [] ∧ u = [] ∨ ['\n'] = ['\n'] := .inr rfl
  cases ho : b.otherwise with
  | none =>
      have hstep := hr.step_single (w := v) b.tag b.opening Padding.none.after p
        { Padding.none with before := b.closing } hlead
      rw [hkept (by simp [CompleteBlock.alternate, ho, placed]), hp] at hstep
      simpa [CompleteBlock.text_append, CompleteBlock.tail, CompleteBlock.inner, ho, Padding.line,
        Padding.none] using hstep
  | some o =>
      obtain ⟨a, ha⟩ := hbody b.alternate fun _ => List.mem_append_right _
      have hstep := hr.step_double (w := v) b.tag b.opening Padding.none.after p o.1 Padding.none.after a
        { Padding.none with before := b.closing } hlead
      rw [hkept ha, hp, ha] at hstep
      simpa [CompleteBlock.text_append, CompleteBlock.tail, CompleteBlock.inner, CompleteBlock.alternate, ho,
        Padding.line, Padding.none] using hstep

end Recognizes

end Resolver

namespace CompleteBlock

variable {names : List Text} {b : CompleteBlock names}

/-- The lines that a branch keeps are fewer characters than the block. -/
theorem selected_length_lt (b : CompleteBlock names) (branch : Branch) :
    ((b.selected branch).flatMap ('\n' :: ·)).length < b.text.length := by
  have hinner : (b.selected branch).Sublist b.inner := by
    cases branch with
    | primary => exact List.sublist_append_left _ _
    | alternate =>
        refine .trans ?_ (List.sublist_append_right _ _)
        cases ho : b.otherwise <;> simp [selected, Branch.pick, alternate, ho]
  have hlength : ((b.selected branch).flatMap ('\n' :: ·)).length ≤
      (b.inner.flatMap ('\n' :: ·)).length := (hinner.flatMap _).length_le
  rw [text, lines]
  simp only [List.flatMap_cons, List.flatMap_append, List.length_append, List.length_cons]
  omega

theorem Unmarked.selected_free (h : b.Unmarked) (branch : Branch) :
    '#' ∉ (b.selected branch).flatMap ('\n' :: ·) := by
  have hlines : ∀ line ∈ branch.pick b.primary b.alternate, '#' ∉ line.text := by
    cases branch with
    | primary => exact fun line hline => h line (List.mem_append_left _ hline)
    | alternate => exact fun line hline => h line (List.mem_append_right _ hline)
  simpa [selected] using hlines

end CompleteBlock

namespace Resolver

namespace Recognizes

variable {r : Resolver} {names : List Text}

theorem resolve_between (hr : r.Recognizes names) (hnames : ∀ n ∈ names, '#' ∉ n) (b : CompleteBlock names)
    {u v : Text} (hu : '#' ∉ u) (hv : '#' ∉ v) : r.resolve (u ++ (b.text ++ v)) =
      u ++ ((if b.Unmarked then b.selected r.branch else b.lines).flatMap ('\n' :: ·) ++ v) := by
  split
  · next hb =>
    rw [← hr.resolve_of_steps hnames (.single (hr.step_of_unmarked hb u v))]
    refine hr.takesBlocks.resolve_of_absent (hr.absent_of_free ?_)
    simp only [List.mem_append, hu, hb.selected_free r.branch, hv, or_self, not_false_eq_true]
  · next hb =>
    refine hr.takesBlocks.resolve_of_absent (absent_iff.mpr fun t ht => ?_)
    rcases hr.fixes_of_marked hnames hb u v t ht with ⟨u', hstep, -⟩ | ⟨v', hstep, -⟩
    · exact absent_iff.mp (hr.absent_of_free hu) u' hstep
    · exact absent_iff.mp (hr.absent_of_free hv) v' (hstep [])

/-- Instead of a block that stays, the selected lines would leave less. -/
theorem unmarked_of_resolve_eq (hr : r.Recognizes names) (hnames : ∀ n ∈ names, '#' ∉ n)
    {b : CompleteBlock names} {u v : Text} (h : r.resolve (u ++ (b.text ++ v)) =
      r.resolve (u ++ ((b.selected r.branch).flatMap ('\n' :: ·) ++ v))) : b.Unmarked := by
  by_contra hb
  obtain ⟨v', hv, -, hstay⟩ := hr.resolve_of_fixes hnames (hr.fixes_of_marked hnames hb) u v
  have hsteps := hr.steps_append (hr.steps_resolve u) hv ((b.selected r.branch).flatMap ('\n' :: ·))
  obtain ⟨-, -, -, -, hsub⟩ := hr.takesBlocks.resolve_spec
    (r.resolve u ++ ((b.selected r.branch).flatMap ('\n' :: ·) ++ v'))
  rw [hr.resolve_of_steps hnames hsteps, ← h, hstay] at hsub
  have hlength := hsub.length_le
  have hless := b.selected_length_lt r.branch
  simp only [List.length_append] at hlength
  omega

end Recognizes

/-- A complete block is replaced by the body that the branch keeps just when no line of its bodies has a
number sign, in any surroundings. If one has, the block stays, and what stands before it is resolved
apart. -/
theorem resolve_complete_block_iff (branch : Branch) : ∃ r, ofTags Tag.defaultSet branch = .ok r ∧
    ∀ b : CompleteBlock Tag.defaultNames,
      (∀ (p : PlainLine) (rest : List PlainLine),
        r.resolve (Text.joinLines (p.text :: (b.lines ++ rest.map (·.text)))) =
          Text.joinLines (p.text :: ((if b.Unmarked then b.selected branch else b.lines) ++
            rest.map (·.text)))) ∧
      ∀ u v, (r.resolve (u ++ (b.text ++ v)) =
          r.resolve (u ++ ((b.selected branch).flatMap ('\n' :: ·) ++ v)) ↔ b.Unmarked) ∧
        (¬ b.Unmarked → r.resolve (u ++ (b.text ++ v)) = r.resolve u ++ r.resolve (b.text ++ v) ∧
          b.text <+: r.resolve (b.text ++ v)) := by
  have hfree := Tag.defaultNames_free
  obtain ⟨r, hr, hnamed, rfl⟩ := exists_ofTags_default branch
  refine ⟨r, hr, fun b => ⟨fun p rest => ?_, fun u v => ⟨⟨hnamed.unmarked_of_resolve_eq hfree, ?_⟩, ?_⟩⟩⟩
  · have hrest : '#' ∉ (rest.map (·.text)).flatMap ('\n' :: ·) := by
      simpa using fun line _ => line.unmarked
    have hvalue := hnamed.resolve_between hfree b p.unmarked hrest
    simpa only [Document.joinLines_cons, List.flatMap_append, CompleteBlock.text] using hvalue
  · exact fun hb => (hnamed.resolve_of_steps hfree (.single (hnamed.step_of_unmarked hb u v))).symm
  · intro hb
    obtain ⟨v', -, hblock, hstay⟩ := hnamed.resolve_of_fixes hfree (hnamed.fixes_of_marked hfree hb) u v
    exact ⟨by rw [hblock, hstay], hblock ▸ List.prefix_append _ _⟩

/-- A block whose first body asks for a version. -/
private def availability : CompleteBlock Tag.defaultNames where
  tag := ⟨"os(Android)", by decide⟩
  opening := .none
  primary := [⟨"if #available(iOS 13, *) \x7b b() \x7d", by decide, by decide⟩]
  otherwise := some (.none, [⟨"c()", by decide, by decide⟩])
  closing := Padding.none.before

/-- The other body has no number sign, but is not selected either. -/
theorem resolve_complete_block_iff_available : ∃ r, ofTags Tag.defaultSet .alternate = .ok r ∧
    r.resolve (Text.joinLines ("a".toList :: (availability.lines ++ ["d".toList]))) =
      Text.joinLines ("a".toList :: (availability.lines ++ ["d".toList])) ∧
    r.resolve "#if SKIP\nx\n#endif" ++ r.resolve (availability.text ++ "d".toList) =
      r.resolve ("#if SKIP\nx\n#endif".toList ++ (availability.text ++ "d".toList)) := by
  obtain ⟨r, hr, hblock⟩ := resolve_complete_block_iff .alternate
  obtain ⟨hbetween, hstays⟩ := hblock availability
  have hmarked : ¬ availability.Unmarked := by decide
  have hplain := hbetween ⟨"a", by decide, by decide⟩ [⟨"d", by decide, by decide⟩]
  rw [if_neg hmarked] at hplain
  exact ⟨r, hr, hplain, ((hstays "#if SKIP\nx\n#endif" "d").2 hmarked).1.symm⟩

private def versioned : Text :=
  "a\n#if KOTLIN\nif #available(iOS 13, *) \x7b b() \x7d\n#else\nc()\n#endif\nd"

/-- The block is left as it is, with both of its bodies, though no line of them is a directive. -/
theorem resolve_complete_block_available :
    (∀ line ∈ ["if #available(iOS 13, *) \x7b b() \x7d", "c()"], isDirective line.toList = false) ∧
      ∃ r, ofTags Tag.defaultSet .primary = .ok r ∧ r.resolve versioned = versioned := by
  have hresolved : (ofTags Tag.defaultSet .primary).toOption.map (·.resolve versioned) =
      some versioned := by decide +kernel
  exact ⟨by decide, exists_of_toOption hresolved⟩

end Resolver

end Crosscheck
