import Crosscheck.Conditional.Resolver
import Crosscheck.Proofs.Conditional.Layout
import Crosscheck.Text.Lines
import Mathlib.Data.List.Basic
/-!
# Documents of nested blocks

A document is a tree of plain lines and blocks. Its value under a branch replaces, from the inside out,
every recognized block whose bodies hold no block any more by its selected body. A pass replaces the
blocks that are ready at present, and passes lead to the value.
-/

namespace Crosscheck

/-- A line outside of all markers. -/
structure PlainLine where
  text : Text
  single : '\n' ∉ text
  unmarked : '#' ∉ text

/-- The line of an `#if`; the condition takes in the blanks after it. -/
structure Opening where
  indent : Blanks
  condition : Text
  single : '\n' ∉ condition

namespace Opening

def line (o : Opening) : Text := o.indent.val ++ ("#if ".toList ++ o.condition)

/-- Whether the condition is one of the names, perhaps with blanks after it. -/
def isOwn (names : List Text) (o : Opening) : Bool :=
  names.any fun n => match Text.after? n o.condition with
    | some gap => gap.all fun c => c = ' ' || c = '\t'
    | none => false

theorem isOwn_iff {names : List Text} {o : Opening} :
    o.isOwn names ↔ Block.Names names o.condition := by
  rw [isOwn, List.any_eq_true]
  constructor
  · intro ⟨n, hn, hgap⟩
    split at hgap
    · next gap hafter =>
      have hall : ∀ c ∈ gap, c = ' ' ∨ c = '\t' := by simpa using hgap
      exact ⟨n, hn, ⟨gap, hall⟩, (List.isPrefixOf?_eq_some_iff_append_eq.mp hafter).symm⟩
    · cases hgap
  · intro ⟨n, hn, gap, hgap⟩
    have hafter : Text.after? n o.condition = some gap.val :=
      List.isPrefixOf?_eq_some_iff_append_eq.mpr hgap.symm
    refine ⟨n, hn, ?_⟩
    rw [hafter]
    simpa using gap.property

end Opening

/-- The line of an `#endif`. -/
def closingLine (indent : Blanks) : Text := indent.val ++ "#endif".toList

/-- Plain lines and blocks in their order. -/
inductive Document
  | done
  | line (s : PlainLine) (rest : Document)
  /-- A block without `#else`. -/
  | single (opening : Opening) (body : Document) (closing : Blanks) (rest : Document)
  /-- A block with `#else`. -/
  | double (opening : Opening) (primary : Document) (middle : Block.Middle) (alternate : Document)
      (closing : Blanks) (rest : Document)

namespace Document

/-- The lines as they are written. -/
def lines : Document → List Text
  | .done => []
  | .line s rest => s.text :: rest.lines
  | .single o body c rest => o.line :: (body.lines ++ closingLine c :: rest.lines)
  | .double o p m a c rest =>
    o.line :: (p.lines ++ m.line :: (a.lines ++ closingLine c :: rest.lines))

/-- One document after the other. -/
def append : Document → Document → Document
  | .done, e => e
  | .line s rest, e => .line s (rest.append e)
  | .single o body c rest, e => .single o body c (rest.append e)
  | .double o p m a c rest, e => .double o p m a c (rest.append e)

/-- Whether there is no block. -/
def isPlain : Document → Bool
  | .done => true
  | .line _ rest => rest.isPlain
  | .single .. | .double .. => false

/-- The body that a branch keeps. -/
def kept (branch : Branch) (primary alternate : Document) : Document :=
  match branch with
  | .primary => primary
  | .alternate => alternate

/-- The document in which, from the inside out, each recognized block without blocks in its bodies has
given way to the body that the branch keeps. -/
def eval (names : List Text) (branch : Branch) : Document → Document
  | .done => .done
  | .line s rest => .line s (rest.eval names branch)
  | .single o body c rest =>
    if o.isOwn names && (body.eval names branch).isPlain then
      (kept branch (body.eval names branch) .done).append (rest.eval names branch)
    else .single o (body.eval names branch) c (rest.eval names branch)
  | .double o p m a c rest =>
    if o.isOwn names && (p.eval names branch).isPlain && (a.eval names branch).isPlain then
      (kept branch (p.eval names branch) (a.eval names branch)).append (rest.eval names branch)
    else .double o (p.eval names branch) m (a.eval names branch) c (rest.eval names branch)

/-- The document in which the recognized blocks that hold no block at present have given way. -/
def pass (names : List Text) (branch : Branch) : Document → Document
  | .done => .done
  | .line s rest => .line s (rest.pass names branch)
  | .single o body c rest =>
    if o.isOwn names && body.isPlain then (kept branch body .done).append (rest.pass names branch)
    else .single o (body.pass names branch) c (rest.pass names branch)
  | .double o p m a c rest =>
    if o.isOwn names && p.isPlain && a.isPlain then (kept branch p a).append (rest.pass names branch)
    else .double o (p.pass names branch) m (a.pass names branch) c (rest.pass names branch)

/-- Whether some recognized block holds no block. -/
def isReady (names : List Text) : Document → Bool
  | .done => false
  | .line _ rest => rest.isReady names
  | .single o body _ rest =>
    o.isOwn names && body.isPlain || body.isReady names || rest.isReady names
  | .double o p _ a _ rest =>
    o.isOwn names && p.isPlain && a.isPlain || p.isReady names || a.isReady names ||
      rest.isReady names

/-- How many blocks there are. -/
def blocks : Document → Nat
  | .done => 0
  | .line _ rest => rest.blocks
  | .single _ body _ rest => body.blocks + rest.blocks + 1
  | .double _ p _ a _ rest => p.blocks + a.blocks + rest.blocks + 1

variable {names : List Text} {branch : Branch} {d e : Document}

theorem isPlain_kept {p a : Document} (hp : p.isPlain) (ha : a.isPlain) :
    (kept branch p a).isPlain := by
  cases branch with
  | primary => exact hp
  | alternate => exact ha

theorem eval_append_plain (h : d.isPlain) :
    (d.append e).eval names branch = d.append (e.eval names branch) := by
  induction d with
  | done => rfl
  | line s rest ih => exact congrArg (Document.line s) (ih h)
  | single => cases h
  | double => cases h

theorem append_done : d.append .done = d := by
  induction d with
  | done => rfl
  | line s rest ih => exact congrArg (Document.line s) ih
  | single o body c rest _ ih => exact congrArg (Document.single o body c) ih
  | double o p m a c rest _ _ ih => exact congrArg (Document.double o p m a c) ih

theorem eval_plain (h : d.isPlain) : d.eval names branch = d := by
  rw [← append_done (d := d), eval_append_plain h]
  rfl

/-- A pass does not change the value. -/
theorem eval_pass : (d.pass names branch).eval names branch = d.eval names branch := by
  induction d with
  | done => rfl
  | line s rest ih => exact congrArg (Document.line s) ih
  | single o body c rest ihb ihr =>
      rw [pass]
      split
      · next h =>
        obtain ⟨ho, hb⟩ := Bool.and_eq_true_iff.mp h
        rw [eval_append_plain (isPlain_kept hb rfl), ihr, eval, eval_plain hb, ho, hb]
        rfl
      · rw [eval, ihb, ihr, eval]
  | double o p m a c rest ihp iha ihr =>
      rw [pass]
      split
      · next h =>
        obtain ⟨hop, ha⟩ := Bool.and_eq_true_iff.mp h
        obtain ⟨ho, hp⟩ := Bool.and_eq_true_iff.mp hop
        rw [eval_append_plain (isPlain_kept hp ha), ihr, eval, eval_plain hp, eval_plain ha, ho, hp,
          ha]
        rfl
      · rw [eval, ihp, iha, ihr, eval]

/-- A document in which no block is ready is its own value. -/
theorem eval_of_not_ready (h : d.isReady names = false) : d.eval names branch = d := by
  induction d with
  | done => rfl
  | line s rest ih => exact congrArg (Document.line s) (ih h)
  | single o body c rest ihb ihr =>
      simp only [isReady, Bool.or_eq_false_iff] at h
      rw [eval, ihb h.1.2, ihr h.2, h.1.1]
      rfl
  | double o p m a c rest ihp iha ihr =>
      simp only [isReady, Bool.or_eq_false_iff] at h
      rw [eval, ihp h.1.1.2, iha h.1.2, ihr h.2, h.1.1.1]
      rfl

theorem blocks_append : (d.append e).blocks = d.blocks + e.blocks := by
  induction d with
  | done => simp [append, blocks]
  | line s rest ih => exact ih
  | single o body c rest _ ih => simp only [append, blocks, ih]; omega
  | double o p m a c rest _ _ ih => simp only [append, blocks, ih]; omega

theorem blocks_kept_le (branch : Branch) (p a : Document) :
    (kept branch p a).blocks ≤ p.blocks + a.blocks := by
  cases branch <;> simp [kept]

theorem blocks_pass_le (names : List Text) (branch : Branch) (d : Document) :
    (d.pass names branch).blocks ≤ d.blocks := by
  induction d with
  | done => exact Nat.le_refl 0
  | line s rest ih => exact ih
  | single o body c rest ihb ihr =>
      rw [pass]
      split
      · have := blocks_kept_le branch body .done
        simp only [blocks_append, blocks] at this ⊢
        omega
      · simp only [blocks]
        omega
  | double o p m a c rest ihp iha ihr =>
      rw [pass]
      split
      · have := blocks_kept_le branch p a
        simp only [blocks_append, blocks] at this ⊢
        omega
      · simp only [blocks]
        omega

/-- A pass over a document with a ready block leaves fewer blocks. -/
theorem blocks_pass_lt (branch : Branch) (h : d.isReady names) : (d.pass names branch).blocks < d.blocks := by
  induction d with
  | done => cases h
  | line s rest ih => exact ih h
  | single o body c rest ihb ihr =>
      have hb := blocks_pass_le names branch body
      have hr := blocks_pass_le names branch rest
      rw [pass]
      split
      · have := blocks_kept_le branch body .done
        simp only [blocks_append, blocks] at this ⊢
        omega
      · next hno =>
        simp only [isReady, hno, Bool.false_or, Bool.or_eq_true] at h
        simp only [blocks]
        rcases h with h | h
        · have := ihb h
          omega
        · have := ihr h
          omega
  | double o p m a c rest ihp iha ihr =>
      have hp := blocks_pass_le names branch p
      have ha := blocks_pass_le names branch a
      have hr := blocks_pass_le names branch rest
      rw [pass]
      split
      · have := blocks_kept_le branch p a
        simp only [blocks_append, blocks] at this ⊢
        omega
      · next hno =>
        simp only [isReady, hno, Bool.false_or, Bool.or_eq_true] at h
        simp only [blocks]
        rcases h with (h | h) | h
        · have := ihp h
          omega
        · have := iha h
          omega
        · have := ihr h
          omega

end Document

end Crosscheck
