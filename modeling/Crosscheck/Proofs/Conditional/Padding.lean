import Crosscheck.Proofs.Conditional.Steps
/-!
# Blanks around markers

What a document of plain lines and recognized blocks resolves to does not depend on the blanks before its
markers, nor on those after `#if` and `#else`. The blanks after an `#endif` are not part of the block: they
are left, and stand behind the line before the block, unless that is the line of a marker which goes, too.
-/

namespace Crosscheck

open Relation

/-- One of two things, as the branch says. -/
def Branch.pick {α : Type} (primary alternate : α) : Branch → α
  | .primary => primary
  | .alternate => alternate

def Blanks.append (a b : Blanks) : Blanks :=
  ⟨a.val ++ b.val, fun c hc => (List.mem_append.mp hc).elim (a.property c) (b.property c)⟩

def Blanks.spaces (n : Nat) : Blanks :=
  ⟨List.replicate n ' ', fun _ hc => .inl (List.eq_of_mem_replicate hc)⟩

@[simp]
theorem Blanks.spaces_zero : (spaces 0).val = [] := rfl

/-- The blanks before and after a marker. -/
structure Padding where
  before : Blanks
  after : Blanks

namespace Padding

def line (p : Padding) (marker : Text) : Text := p.before.val ++ (marker ++ p.after.val)

def none : Padding := ⟨.spaces 0, .spaces 0⟩

/-- The padding without the blanks before the marker. -/
def behind (p : Padding) : Padding := { none with after := p.after }

end Padding

/-- Plain lines and recognized blocks in their order, with any blanks around the markers. -/
inductive Outline (names : List Text)
  | done
  | line (s : PlainLine) (rest : Outline names)
  /-- A block without `#else`. -/
  | single (tag : {n // n ∈ names}) (opening : Padding) (body : Outline names) (closing : Padding)
      (rest : Outline names)
  /-- A block with `#else`. -/
  | double (tag : {n // n ∈ names}) (opening : Padding) (primary : Outline names) (middle : Padding)
      (alternate : Outline names) (closing : Padding) (rest : Outline names)

namespace Outline

variable {names : List Text}

/-- The lines as they are written. -/
def lines : Outline names → List Text
  | .done => []
  | .line s rest => s.text :: rest.lines
  | .single n o body c rest =>
    o.line ("#if ".toList ++ n.val) :: (body.lines ++ c.line "#endif" :: rest.lines)
  | .double n o p m a c rest =>
    o.line ("#if ".toList ++ n.val) ::
      (p.lines ++ m.line "#else" :: (a.lines ++ c.line "#endif" :: rest.lines))

/-- The document without blanks around its markers. -/
def bare : Outline names → Outline names
  | .done => .done
  | .line s rest => .line s rest.bare
  | .single n _ body _ rest => .single n .none body.bare .none rest.bare
  | .double n _ p _ a _ rest => .double n .none p.bare .none a.bare .none rest.bare

/-- The document without blanks around its markers, except for those after an `#endif`. -/
def trim : Outline names → Outline names
  | .done => .done
  | .line s rest => .line s rest.trim
  | .single n _ body c rest => .single n .none body.trim c.behind rest.trim
  | .double n _ p _ a c rest => .double n .none p.trim .none a.trim c.behind rest.trim

/-- The plain lines outside of the bodies that the branch drops. -/
def selected (branch : Branch) : Outline names → List Text
  | .done => []
  | .line s rest => s.text :: rest.selected branch
  | .single _ _ body _ rest => branch.pick (body.selected branch) [] ++ rest.selected branch
  | .double _ _ p _ a _ rest => branch.pick (p.selected branch) (a.selected branch) ++ rest.selected branch

/-- How many blanks after an `#endif` are left before the first of the selected lines. -/
def ahead (branch : Branch) : Outline names → Nat
  | .done => 0
  | .line _ _ => 0
  | .single _ _ body c rest =>
    if branch.pick (body.selected branch) [] = [] then c.after.val.length + rest.ahead branch else 0
  | .double _ _ p _ a c rest =>
    if branch.pick (p.selected branch) (a.selected branch) = [] then
      c.after.val.length + rest.ahead branch else 0

/-- How many blanks after an `#endif` are left behind selected lines. Those that a body has ahead of its
lines are behind the marker of the body, and go with it. -/
def within (branch : Branch) : Outline names → Nat
  | .done => 0
  | .line _ rest => rest.ahead branch + rest.within branch
  | .single _ _ body c rest =>
    branch.pick (body.within branch) 0 + rest.within branch +
      if branch.pick (body.selected branch) [] = [] then 0 else c.after.val.length + rest.ahead branch
  | .double _ _ p _ a c rest =>
    branch.pick (p.within branch) (a.within branch) + rest.within branch +
      if branch.pick (p.selected branch) (a.selected branch) = [] then 0
      else c.after.val.length + rest.ahead branch

/-- How many blanks after an `#endif` are left. -/
def leaked (branch : Branch) (d : Outline names) : Nat := d.ahead branch + d.within branch

/-- Whether the document opens with a block that leaves no line. -/
def opensEmpty (branch : Branch) : Outline names → Bool
  | .single _ _ body _ _ => (branch.pick (body.selected branch) []).isEmpty
  | .double _ _ p _ a _ _ => (branch.pick (p.selected branch) (a.selected branch)).isEmpty
  | _ => false

/-- The lines that are left of a text. An empty line stands for a block that opens the text and leaves
no line. -/
def left (branch : Branch) (d : Outline names) : List Text :=
  if d.opensEmpty branch then [] :: d.selected branch else d.selected branch

/-- The selected lines, each after a line break, with the blanks that are left. -/
def value (branch : Branch) : Outline names → Text
  | .done => []
  | .line s rest => '\n' :: (s.text ++ rest.value branch)
  | .single _ _ body c rest =>
    (branch.pick (body.value branch) []).dropWhile (· ≠ '\n') ++ (c.after.val ++ rest.value branch)
  | .double _ _ p _ a c rest =>
    (branch.pick (p.value branch) (a.value branch)).dropWhile (· ≠ '\n') ++
      (c.after.val ++ rest.value branch)

end Outline

/-! ## Blanks that are left -/

namespace Block

/-- A body behind what stands before its block, and nothing without a body. -/
def placed (lead : Text) (b : Option Body) : Text := b.elim [] fun b => lead ++ b.val

/-- The lines, each after a line break, with `m` blanks ahead of them and `n` blanks behind them. -/
def Writes (t : Text) (ls : List Text) (m n : Nat) : Prop :=
  ∃ (gap : Blanks) (b : Option Body), t = gap.val ++ placed ['\n'] b ∧ gap.val.length = m ∧
    (b = none ↔ ls = []) ∧ (ls.flatMap ('\n' :: ·)).Sublist (placed ['\n'] b) ∧
    (placed ['\n'] b).length = (ls.flatMap ('\n' :: ·)).length + n

variable {t t' : Text} {ls ls' : List Text} {m m' n n' : Nat}

theorem placed_free {lead : Text} (hlead : '#' ∉ lead) (b : Option Body) : '#' ∉ placed lead b := by
  cases b with
  | none => exact List.not_mem_nil
  | some b => simp [placed, hlead, b.property]

/-- The first line break is the one before the body. -/
theorem dropWhile_placed (gap : Blanks) (b : Option Body) :
    (gap.val ++ placed ['\n'] b).dropWhile (· ≠ '\n') = placed ['\n'] b := by
  rw [List.dropWhile_append_of_pos]
  · cases b <;> simp [placed]
  · intro c hc
    have hnewline : '\n' ∉ gap.val := gap.not_mem (by decide)
    simpa using ne_of_mem_of_not_mem hc hnewline

theorem writes_nil : Writes [] [] 0 0 := ⟨.spaces 0, none, rfl, rfl, by simp, .refl [], rfl⟩

theorem Writes.free (h : Writes t ls m n) : '#' ∉ t := by
  obtain ⟨gap, b, rfl, -⟩ := h
  rw [List.mem_append, not_or]
  exact ⟨gap.not_mem (by decide), placed_free (by decide) b⟩

/-- What is ahead of the lines is behind a line that is put before them. -/
theorem Writes.line (s : PlainLine) (h : Writes t ls m n) :
    Writes ('\n' :: (s.text ++ t)) (s.text :: ls) 0 (m + n) := by
  have hfree : '#' ∉ s.text ++ t := by simp [s.unmarked, h.free]
  obtain ⟨gap, b, rfl, hgap, -, hsub, hlength⟩ := h
  refine ⟨.spaces 0, some ⟨s.text ++ (gap.val ++ placed ['\n'] b), hfree⟩, rfl, rfl, by simp, ?_, ?_⟩
  · exact ((List.Sublist.refl s.text).append (hsub.trans (List.sublist_append_right _ _))).cons_cons '\n'
  · simp only [placed, Option.elim_some, List.flatMap_cons, List.length_append, List.length_cons,
      List.length_nil] at hlength ⊢
    omega

/-- What a block leaves, with the blanks behind its last marker: if it leaves no line, they are ahead of the
lines that follow. -/
theorem Writes.block (c : Blanks) (h : Writes t ls m n) (h' : Writes t' ls' m' n') :
    Writes (t.dropWhile (· ≠ '\n') ++ (c.val ++ t')) (ls ++ ls')
      (if ls = [] then c.val.length + m' else 0)
      (n + n' + if ls = [] then 0 else c.val.length + m') := by
  have hfree' := h'.free
  obtain ⟨gap, b, rfl, -, hb, hsub, hlength⟩ := h
  obtain ⟨gap', b', rfl, hgap', hb', hsub', hlength'⟩ := h'
  rw [dropWhile_placed]
  cases b with
  | none =>
      obtain rfl := hb.mp rfl
      have hn : n = 0 := by simpa [placed] using hlength.symm
      refine ⟨c.append gap', b', ?_, ?_, by simpa using hb', by simpa using hsub', ?_⟩
      · simp [placed, Blanks.append]
      · simp [Blanks.append, hgap']
      · simpa [hn] using hlength'
  | some b =>
      have hne : ls ≠ [] := mt hb.mpr (Option.some_ne_none b)
      have hfree : '#' ∉ b.val ++ (c.val ++ (gap'.val ++ placed ['\n'] b')) := by
        simpa [b.property, c.not_mem] using hfree'
      refine ⟨.spaces 0, some ⟨_, hfree⟩, by simp [placed], by simp [hne], by simp [hne], ?_, ?_⟩
      · have hrest := (hsub'.trans (List.sublist_append_right gap'.val _)).trans
          (List.sublist_append_right c.val _)
        simpa [placed] using hsub.append hrest
      · simp only [placed, Option.elim_some, List.flatMap_append, List.length_append, List.length_cons,
          List.length_nil, if_neg hne] at hlength hlength' ⊢
        omega

end Block

namespace Outline

variable {names : List Text}

theorem writes_value (branch : Branch) (d : Outline names) :
    Block.Writes (d.value branch) (d.selected branch) (d.ahead branch) (d.within branch) := by
  induction d with
  | done => exact Block.writes_nil
  | line s rest ih => exact ih.line s
  | single _ o body c rest ihb ihr =>
      cases branch with
      | primary => exact ihb.block c.after ihr
      | alternate => exact Block.writes_nil.block c.after ihr
  | double _ o p m a c rest ihp iha ihr =>
      cases branch with
      | primary => exact ihp.block c.after ihr
      | alternate => exact iha.block c.after ihr

end Outline

/-! ## Resolving inside out -/

namespace Resolver.Recognizes

open Block

variable {r : Resolver} {names : List Text} {u w lead : Text} {gap gap' : Blanks} {b b' : Option Body}

theorem step_layout (hr : r.Recognizes names) {l : Layout} (hlead : l.lead = [] ∧ u = [] ∨ l.lead = ['\n'])
    (hcondition : Names names l.condition) :
    r.Step (u ++ (l.text ++ w)) (u ++ (placed l.lead (l.chosen r.branch) ++ w)) :=
  hr.step_iff.mpr ⟨l, u, w, ⟨rfl, hlead, hcondition⟩, rfl⟩

private theorem placed_append (b : Option Body) (s : Text) :
    placed ['\n'] b ++ '\n' :: s = '\n' :: (bodyText b ++ s) := by
  cases b <;> simp [placed, bodyText]

private theorem names_condition (n : {n // n ∈ names}) (gap : Blanks) : Names names (n.val ++ gap.val) :=
  ⟨n.val, n.property, gap, rfl⟩

/-- A block whose body is resolved. The blanks that the body has ahead of its lines belong to the `#if`. -/
theorem step_single (hr : r.Recognizes names) (n : {n // n ∈ names}) (o : Padding) (gap : Blanks)
    (b : Option Body) (c : Padding) (hlead : lead = [] ∧ u = [] ∨ lead = ['\n']) :
    r.Step (u ++ (lead ++ (o.line ("#if ".toList ++ n.val) ++ (gap.val ++ placed ['\n'] b ++
        '\n' :: (c.line "#endif" ++ w)))))
      (u ++ (placed lead (r.branch.pick b none) ++ (c.after.val ++ w))) := by
  have hstep := hr.step_layout (w := c.after.val ++ w) (l := ⟨lead, o.before,
    n.val ++ (o.after.append gap).val, b, none, c.before⟩) hlead (names_condition n _)
  have hchosen : Layout.chosen ⟨lead, o.before, n.val ++ (o.after.append gap).val, b, none, c.before⟩
      r.branch = r.branch.pick b none := by cases r.branch <;> rfl
  rw [hchosen] at hstep
  simpa [Layout.text, Layout.after, Layout.elseText, Padding.line, Blanks.append, placed_append]
    using hstep

/-- A block whose bodies are resolved. -/
theorem step_double (hr : r.Recognizes names) (n : {n // n ∈ names}) (o : Padding) (gap : Blanks)
    (b : Option Body) (m : Padding) (gap' : Blanks) (b' : Option Body) (c : Padding)
    (hlead : lead = [] ∧ u = [] ∨ lead = ['\n']) :
    r.Step (u ++ (lead ++ (o.line ("#if ".toList ++ n.val) ++ (gap.val ++ placed ['\n'] b ++
        '\n' :: (m.line "#else" ++ (gap'.val ++ placed ['\n'] b' ++ '\n' :: (c.line "#endif" ++ w)))))))
      (u ++ (placed lead (r.branch.pick b b') ++ (c.after.val ++ w))) := by
  have hstep := hr.step_layout (w := c.after.val ++ w) (l := ⟨lead, o.before,
    n.val ++ (o.after.append gap).val, b, some (⟨m.before, m.after.append gap'⟩, b'), c.before⟩) hlead
      (names_condition n _)
  have hchosen : Layout.chosen ⟨lead, o.before, n.val ++ (o.after.append gap).val, b,
      some (⟨m.before, m.after.append gap'⟩, b'), c.before⟩ r.branch = r.branch.pick b b' := by
    cases r.branch <;> rfl
  rw [hchosen] at hstep
  simpa [Layout.text, Layout.after, Layout.elseText, Middle.line, Padding.line, Blanks.append, placed_append]
    using hstep

private theorem dropWhile_pick_single (branch : Branch) :
    (branch.pick (gap.val ++ placed ['\n'] b) []).dropWhile (· ≠ '\n') =
      placed ['\n'] (branch.pick b none) := by
  cases branch with
  | primary => exact dropWhile_placed gap b
  | alternate => rfl

private theorem dropWhile_pick_double (branch : Branch) :
    (branch.pick (gap.val ++ placed ['\n'] b) (gap'.val ++ placed ['\n'] b')).dropWhile (· ≠ '\n') =
      placed ['\n'] (branch.pick b b') := by
  cases branch with
  | primary => exact dropWhile_placed gap b
  | alternate => exact dropWhile_placed gap' b'

/-- The lines come to the text, whatever stands around them. -/
def ComesTo (r : Resolver) (ls : List Text) (t : Text) : Prop :=
  ∀ u w, ReflTransGen r.Step (u ++ (ls.flatMap ('\n' :: ·) ++ w)) (u ++ (t ++ w))

variable {ls ls' : List Text}

theorem steps_single (hr : r.Recognizes names) (n : {n // n ∈ names}) (o c : Padding)
    (hlead : lead = [] ∧ u = [] ∨ lead = ['\n']) (h : ComesTo r ls (gap.val ++ placed ['\n'] b)) :
    ReflTransGen r.Step
      (u ++ (lead ++ (o.line ("#if ".toList ++ n.val) ++ (ls.flatMap ('\n' :: ·) ++
        '\n' :: (c.line "#endif" ++ w)))))
      (u ++ (placed lead (r.branch.pick b none) ++ (c.after.val ++ w))) := by
  have hbody := h (u ++ (lead ++ o.line ("#if ".toList ++ n.val))) ('\n' :: (c.line "#endif" ++ w))
  refine .tail ?_ (hr.step_single n o gap b c hlead)
  simpa using hbody

theorem steps_double (hr : r.Recognizes names) (n : {n // n ∈ names}) (o m c : Padding)
    (hlead : lead = [] ∧ u = [] ∨ lead = ['\n']) (h : ComesTo r ls (gap.val ++ placed ['\n'] b))
    (h' : ComesTo r ls' (gap'.val ++ placed ['\n'] b')) :
    ReflTransGen r.Step
      (u ++ (lead ++ (o.line ("#if ".toList ++ n.val) ++ (ls.flatMap ('\n' :: ·) ++
        '\n' :: (m.line "#else" ++ (ls'.flatMap ('\n' :: ·) ++ '\n' :: (c.line "#endif" ++ w)))))))
      (u ++ (placed lead (r.branch.pick b b') ++ (c.after.val ++ w))) := by
  have hprimary := h (u ++ (lead ++ o.line ("#if ".toList ++ n.val)))
    ('\n' :: (m.line "#else" ++ (ls'.flatMap ('\n' :: ·) ++ '\n' :: (c.line "#endif" ++ w))))
  have halternate := h' (u ++ (lead ++ (o.line ("#if ".toList ++ n.val) ++ (gap.val ++ placed ['\n'] b ++
    '\n' :: m.line "#else")))) ('\n' :: (c.line "#endif" ++ w))
  refine .tail ?_ (hr.step_double n o gap b m gap' b' c hlead)
  refine .trans (by simpa using hprimary) ?_
  simpa using halternate

/-- A document comes to its value: the bodies of its blocks first, and then the blocks. -/
theorem comesTo_value (hr : r.Recognizes names) (d : Outline names) :
    ComesTo r d.lines (d.value r.branch) := by
  induction d with
  | done => exact fun _ _ => .refl
  | line s rest ih =>
      intro u w
      simpa [Outline.lines, Outline.value] using ih (u ++ '\n' :: s.text) w
  | single n o body c rest ihb ihr =>
      intro u w
      obtain ⟨gap, b, hbody, -⟩ := body.writes_value r.branch
      rw [hbody] at ihb
      have hblock := hr.steps_single (u := u) (w := rest.lines.flatMap ('\n' :: ·) ++ w) n o c (.inr rfl) ihb
      have hrest := ihr (u ++ (placed ['\n'] (r.branch.pick b none) ++ c.after.val)) w
      simp only [Outline.value, hbody, dropWhile_pick_single]
      exact .trans (by simpa [Outline.lines] using hblock) (by simpa using hrest)
  | double n o p m a c rest ihp iha ihr =>
      intro u w
      obtain ⟨gap, b, hprimary, -⟩ := p.writes_value r.branch
      obtain ⟨gap', b', halternate, -⟩ := a.writes_value r.branch
      rw [hprimary] at ihp
      rw [halternate] at iha
      have hblock := hr.steps_double (u := u) (w := rest.lines.flatMap ('\n' :: ·) ++ w) n o m c (.inr rfl)
        ihp iha
      have hrest := ihr (u ++ (placed ['\n'] (r.branch.pick b b') ++ c.after.val)) w
      simp only [Outline.value, hprimary, halternate, dropWhile_pick_double]
      exact .trans (by simpa [Outline.lines] using hblock) (by simpa using hrest)

private theorem placed_start (hb : b = none ↔ ls = []) (t : Text) :
    placed [] b ++ t = if ls.isEmpty then placed ['\n'] b ++ t else (placed ['\n'] b ++ t).tail := by
  cases b with
  | none => simp [hb.mp rfl, placed]
  | some b => simp [placed, mt hb.mpr (Option.some_ne_none b)]

private theorem pick_eq_none (branch : Branch) (hb : b = none ↔ ls = []) (hb' : b' = none ↔ ls' = []) :
    branch.pick b b' = none ↔ branch.pick ls ls' = [] := by
  cases branch with
  | primary => exact hb
  | alternate => exact hb'

/-- At the start of a text, the line break before the first line is missing. A block that leaves no line
leaves none to miss. -/
theorem steps_start (hr : r.Recognizes names) (d : Outline names) :
    ReflTransGen r.Step (Text.joinLines d.lines)
      (if d.opensEmpty r.branch then d.value r.branch else (d.value r.branch).tail) := by
  cases d with
  | done => exact .refl
  | line s rest =>
      have hrest := hr.comesTo_value rest s.text []
      simpa [Outline.lines, Outline.opensEmpty, Outline.value, Document.joinLines_cons] using hrest
  | single n o body c rest =>
      obtain ⟨gap, b, hvalue, -, hb, -⟩ := body.writes_value r.branch
      have hbody := hvalue ▸ hr.comesTo_value body
      have hblock := hr.steps_single (u := []) (w := rest.lines.flatMap ('\n' :: ·)) n o c (.inl ⟨rfl, rfl⟩)
        hbody
      have hrest := hr.comesTo_value rest (placed [] (r.branch.pick b none) ++ c.after.val) []
      have hnone : (none : Option Body) = none ↔ ([] : List Text) = [] := iff_of_true rfl rfl
      have hstart := placed_start (pick_eq_none r.branch hb hnone) (c.after.val ++ rest.value r.branch)
      simp only [Outline.value, hvalue, dropWhile_pick_single, Outline.opensEmpty, ← hstart]
      exact .trans (by simpa [Outline.lines, Document.joinLines_cons] using hblock) (by simpa using hrest)
  | double n o p m a c rest =>
      obtain ⟨gap, b, hprimary, -, hb, -⟩ := p.writes_value r.branch
      obtain ⟨gap', b', halternate, -, hb', -⟩ := a.writes_value r.branch
      have hp := hprimary ▸ hr.comesTo_value p
      have ha := halternate ▸ hr.comesTo_value a
      have hblock := hr.steps_double (u := []) (w := rest.lines.flatMap ('\n' :: ·)) n o m c
        (.inl ⟨rfl, rfl⟩) hp ha
      have hrest := hr.comesTo_value rest (placed [] (r.branch.pick b b') ++ c.after.val) []
      have hstart := placed_start (pick_eq_none r.branch hb hb') (c.after.val ++ rest.value r.branch)
      simp only [Outline.value, hprimary, halternate, dropWhile_pick_double, Outline.opensEmpty, ← hstart]
      exact .trans (by simpa [Outline.lines, Document.joinLines_cons] using hblock) (by simpa using hrest)

/-- A text without number signs holds no block. -/
theorem absent_of_free (hr : r.Recognizes names) {s : Text} (h : '#' ∉ s) : r.block.Absent s := by
  refine absent_iff.mpr fun t ht => ?_
  obtain ⟨l, u, v, hl, -⟩ := hr.step_iff.mp ht
  refine h ?_
  rw [hl.text, Layout.text_eq_before]
  exact List.mem_append_right _ List.mem_cons_self

theorem resolve_outline (hr : r.Recognizes names) (hnames : ∀ n ∈ names, '#' ∉ n) (d : Outline names) :
    r.resolve (Text.joinLines d.lines) =
      if d.opensEmpty r.branch then d.value r.branch else (d.value r.branch).tail := by
  have hfree := (d.writes_value r.branch).free
  rw [← hr.resolve_of_steps hnames (hr.steps_start d), hr.takesBlocks.resolve_of_absent]
  refine hr.absent_of_free ?_
  split
  · exact hfree
  · exact fun h => hfree (List.mem_of_mem_tail h)

end Resolver.Recognizes

namespace Outline

variable {names : List Text} {branch : Branch}

/-! ## Blanks that do not matter -/

theorem selected_bare (d : Outline names) : d.bare.selected branch = d.selected branch := by
  induction d <;> simp_all [bare, selected]

theorem left_bare (d : Outline names) : d.bare.left branch = d.left branch := by
  have hopens : d.bare.opensEmpty branch = d.opensEmpty branch := by
    cases d <;> simp [bare, opensEmpty, selected_bare]
  rw [left, left, hopens, selected_bare]

theorem selected_trim (d : Outline names) : d.trim.selected branch = d.selected branch := by
  induction d <;> simp_all [trim, selected]

theorem value_trim (d : Outline names) : d.trim.value branch = d.value branch := by
  induction d <;> simp_all [trim, value, Padding.behind]

theorem opensEmpty_trim (d : Outline names) : d.trim.opensEmpty branch = d.opensEmpty branch := by
  cases d <;> simp [trim, opensEmpty, selected_trim]

/-- Unless the document opens with a block that leaves no line, nothing is ahead of its first line. -/
theorem ahead_of_not_opensEmpty {d : Outline names} (h : ¬ d.opensEmpty branch) : d.ahead branch = 0 := by
  cases d <;> simp_all [opensEmpty, ahead]

theorem joinLines_eq_tail (ls : List Text) : Text.joinLines ls = (ls.flatMap ('\n' :: ·)).tail := by
  cases ls with
  | nil => rfl
  | cons l ls => rw [Document.joinLines_cons, List.flatMap_cons, List.cons_append, List.tail_cons]

/-- The value is the writing of the lines that are left, with the blanks that are left in it. -/
theorem left_sublist (branch : Branch) (d : Outline names) :
    let t := if d.opensEmpty branch then d.value branch else (d.value branch).tail
    (Text.joinLines (d.left branch)).Sublist t ∧
      t.length = (Text.joinLines (d.left branch)).length + d.leaked branch := by
  obtain ⟨gap, b, hvalue, hgap, hb, hsub, hlength⟩ := d.writes_value branch
  rw [left, leaked]
  by_cases hopens : d.opensEmpty branch
  · simp only [if_pos hopens, Document.joinLines_cons, List.nil_append, hvalue]
    refine ⟨hsub.trans (List.sublist_append_right _ _), ?_⟩
    rw [List.length_append, hlength, hgap]
    omega
  · have hnone : gap.val = [] := List.length_eq_zero_iff.mp (hgap.trans (ahead_of_not_opensEmpty hopens))
    simp only [if_neg hopens, joinLines_eq_tail, hvalue, hnone, List.nil_append]
    refine ⟨hsub.tail, ?_⟩
    rw [List.length_tail, List.length_tail, ahead_of_not_opensEmpty hopens, hlength]
    cases b with
    | none =>
        have hnil := hb.mp rfl
        have hwithin : d.within branch = 0 := by simpa [hnil, Block.placed] using hlength.symm
        rw [hnil, hwithin]
        rfl
    | some b =>
        obtain ⟨l, ls, hcons⟩ := List.exists_cons_of_ne_nil (mt hb.mpr (Option.some_ne_none b))
        rw [hcons, List.flatMap_cons, List.length_append, List.length_cons]
        omega

end Outline

namespace Resolver

/-- Blanks before the markers and after `#if` and `#else` do not matter. Of the blanks after each `#endif`,
some are left in the text: the result is the writing of the lines that the branch keeps just when there are
none of these. So of two documents that differ in blanks around the markers, the result is the same if
neither leaves any, and not if one of them does. -/
theorem resolve_blanks_iff (branch : Branch) : ∃ r, ofTags Tag.defaultSet branch = .ok r ∧
    ∀ d d' : Outline Tag.defaultNames,
      (d.trim = d'.trim → r.resolve (Text.joinLines d.lines) = r.resolve (Text.joinLines d'.lines)) ∧
      (d.bare = d'.bare → d'.leaked branch = 0 →
        (r.resolve (Text.joinLines d.lines) = r.resolve (Text.joinLines d'.lines) ↔ d.leaked branch = 0)) ∧
      (r.resolve (Text.joinLines d.lines) = Text.joinLines (d.left branch) ↔ d.leaked branch = 0) ∧
      (Text.joinLines (d.left branch)).Sublist (r.resolve (Text.joinLines d.lines)) ∧
      (r.resolve (Text.joinLines d.lines)).length =
        (Text.joinLines (d.left branch)).length + d.leaked branch := by
  obtain ⟨r, hr, hnamed, rfl⟩ := exists_ofTags_default branch
  have hresolve := hnamed.resolve_outline Tag.defaultNames_free
  have hleft (d : Outline Tag.defaultNames) :
      r.resolve (Text.joinLines d.lines) = Text.joinLines (d.left r.branch) ↔ d.leaked r.branch = 0 := by
    obtain ⟨hsub, hlength⟩ := d.left_sublist r.branch
    rw [hresolve]
    constructor
    · intro heq
      rw [heq] at hlength
      omega
    · intro hnone
      exact (hsub.eq_of_length (by rw [hlength, hnone, Nat.add_zero])).symm
  refine ⟨r, hr, fun d d' => ⟨?_, ?_, hleft d, ?_⟩⟩
  · intro htrim
    rw [hresolve, hresolve, ← d.value_trim, ← d.opensEmpty_trim, htrim, d'.value_trim, d'.opensEmpty_trim]
  · intro hbare hnone
    have hsame : d'.left r.branch = d.left r.branch := by rw [← d.left_bare, hbare, d'.left_bare]
    rw [(hleft d').mpr hnone, hsame]
    exact hleft d
  · rw [hresolve]
    exact d.left_sublist r.branch

/-- The blanks after the inner `#endif` come to stand behind the `#if` of the outer block, and go with it. -/
private def paddedOutline : Outline Tag.defaultNames :=
  .line ⟨"p", by decide, by decide⟩
    (.single ⟨"SKIP", by decide⟩ ⟨.spaces 2, .spaces 1⟩
      (.double ⟨"KOTLIN", by decide⟩ ⟨.spaces 1, .spaces 0⟩ .done ⟨.spaces 1, .spaces 2⟩
        (.line ⟨"x", by decide, by decide⟩ .done) ⟨.spaces 1, .spaces 2⟩
        (.line ⟨"y", by decide, by decide⟩ .done)) .none
      (.line ⟨"q", by decide, by decide⟩ .done))

theorem resolve_blanks_iff_nested : ∃ r, ofTags Tag.defaultSet .primary = .ok r ∧
    r.resolve (Text.ofLines ["p", "  #if SKIP ", " #if KOTLIN", " #else  ", "x", " #endif  ", "y", "#endif",
        "q"]) = Text.ofLines ["p", "y", "q"] ∧
      r.resolve (Text.joinLines paddedOutline.lines) =
        r.resolve (Text.joinLines paddedOutline.bare.lines) := by
  obtain ⟨r, hr, hblanks⟩ := resolve_blanks_iff .primary
  obtain ⟨-, hsame, hleft, -⟩ := hblanks paddedOutline paddedOutline.bare
  exact ⟨r, hr, hleft.mpr (by decide), (hsame rfl (by decide)).mpr (by decide)⟩

/-- The blanks after the `#endif` stand behind the line that is kept. -/
theorem resolve_blanks_closing : ∃ r, ofTags Tag.defaultSet .primary = .ok r ∧
    r.resolve "p\n#if KOTLIN\nA\n#endif\nq" = "p\nA\nq".toList ∧
      r.resolve "p\n#if KOTLIN\nA\n#endif  \nq" = "p\nA  \nq".toList := by
  have hresolved : (ofTags Tag.defaultSet .primary).toOption.map (fun r =>
      (r.resolve "p\n#if KOTLIN\nA\n#endif\nq", r.resolve "p\n#if KOTLIN\nA\n#endif  \nq")) =
        some ("p\nA\nq".toList, "p\nA  \nq".toList) := by decide +kernel
  obtain ⟨r, hr, hvalues⟩ := exists_of_toOption hresolved
  exact ⟨r, hr, (Prod.mk.inj hvalues).1, (Prod.mk.inj hvalues).2⟩

end Resolver

end Crosscheck
