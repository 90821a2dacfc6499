import Crosscheck.Pattern.Reader
import Mathlib.Data.List.Basic
/-!
# Reading inside a group

A text that is a pattern by itself is read the same way between the parentheses of a group: reading stops at
the closing one, groups are counted on from those before, and only a name that has been given before can be
in the way. The relation between the two readings composes like the steps of reading do.
-/

namespace Crosscheck.Pattern

/-- What surrounds the inside of a group: the text behind its closing parenthesis, the number of groups
before it, and the names given to them. -/
structure Frame where
  behind : Text
  groups : Nat
  names : List (Text × Nat)

namespace Frame

/-- A name with its number counted on. -/
def renumber (e : Frame) (entry : Text × Nat) : Text × Nat := (entry.1, entry.2 + e.groups)

/-- A state of reading, placed in the frame. -/
def place (e : Frame) (p : Progress) : Progress :=
  { p with
    rest := p.rest ++ ')' :: e.behind
    nextGroup := p.nextGroup + e.groups
    names := p.names.map e.renumber ++ e.names }

/-- No name is given twice, the names of the frame included. -/
def Fresh (e : Frame) (names : List (Text × Nat)) : Prop := ((names ++ e.names).map (·.1)).Nodup

instance (e : Frame) (names : List (Text × Nat)) : Decidable (e.Fresh names) :=
  inferInstanceAs (Decidable (List.Nodup _))

theorem Fresh.of_suffix {e : Frame} {names names' : List (Text × Nat)} (h : e.Fresh names')
    (hsuffix : names <:+ names') : e.Fresh names := by
  obtain ⟨before, rfl⟩ := hsuffix
  unfold Fresh at h ⊢
  rw [List.append_assoc, List.map_append] at h
  exact (List.nodup_append.mp h).2.1

theorem fresh_cons {e : Frame} {name : Text} {n : Nat} {names : List (Text × Nat)} :
    e.Fresh ((name, n) :: names) ↔ name ∉ (names ++ e.names).map (·.1) ∧ e.Fresh names := by
  unfold Fresh
  rw [List.cons_append, List.map_cons, List.nodup_cons]

theorem any_names (e : Frame) (p : Progress) (name : Text) :
    (e.place p).names.any (·.1 = name) ↔ name ∈ (p.names ++ e.names).map (·.1) := by
  have hnames : (e.place p).names.map (·.1) = (p.names ++ e.names).map (·.1) := by
    simp [place, renumber, Function.comp_def]
  rw [← hnames, List.any_eq_true, List.mem_map]
  exact exists_congr fun entry => and_congr_right fun _ => decide_eq_true_iff

end Frame

variable {α β γ δ : Type} {e : Frame} {p : Progress} {f : α → β} {g : γ → δ}

/-- The text that passing over a character leaves. -/
def ahead (p : Progress) : Text :=
  if p.flags.verbose then (Read.dropVerbose false (p.rest.drop 1)).1 else p.rest.drop 1

/-- What `x` reads from a state by itself, `y` reads in the frame, and `f` adapts the result, unless a name
is given that has been given before. The numbers of groups grow, and `W` holds of the result and the number
that comes next. -/
def Follows (e : Frame) (W : Nat → α → Prop) (f : α → β) (x : Read α) (y : Read β) (p : Progress) : Prop :=
  ∀ a q, x p = .ok (a, q) → p.nextGroup ≤ q.nextGroup ∧ W q.nextGroup a ∧
    (q.openComment = false → p.openComment = false ∧ p.names <:+ q.names ∧
      (e.Fresh p.names → y (e.place p) =
        if e.Fresh q.names then .ok (f a, e.place q) else .error .repeatedGroupName))

/-- What `x` reads from a state by itself, `y` reads in the frame. -/
abbrev Copies (e : Frame) (x y : Read α) (p : Progress) : Prop := Follows e (fun _ _ => True) id x y p

/-- What is read by itself is read in the frame. -/
abbrev Keeps (e : Frame) (x : Read α) (p : Progress) : Prop := Copies e x x p

theorem bind_apply (x : Read α) (k : α → Read γ) (p : Progress) :
    (x >>= k) p = (x p).bind fun aq => k aq.1 aq.2 := rfl

theorem bind_of_ok {x : Read α} {k : α → Read γ} {a : α} {q : Progress} (h : x p = .ok (a, q)) :
    (x >>= k) p = k a q := by
  rw [bind_apply, h]
  rfl

theorem bind_of_error {x : Read α} {k : α → Read γ} {d : Defect} (h : x p = .error d) :
    (x >>= k) p = .error d := by
  rw [bind_apply, h]
  rfl

theorem exists_of_bind {x : Read α} {k : α → Read γ} {r : γ × Progress}
    (h : (x >>= k) p = .ok r) : ∃ a q, x p = .ok (a, q) ∧ k a q = .ok r := by
  cases hx : x p with
  | ok aq =>
      rw [bind_apply, hx] at h
      exact ⟨aq.1, aq.2, rfl, h⟩
  | error d =>
      rw [bind_of_error hx] at h
      cases h

namespace Follows

variable {W : Nat → α → Prop} {V : Nat → γ → Prop}

theorem bind {x : Read α} {y : Read β} {k : α → Read γ} {k' : β → Read δ} (hx : Follows e W f x y p)
    (hk : ∀ a q, x p = .ok (a, q) → p.nextGroup ≤ q.nextGroup → W q.nextGroup a →
      Follows e V g (k a) (k' (f a)) q) : Follows e V g (x >>= k) (y >>= k') p := by
  intro b r hrun
  obtain ⟨a, q, ha, hb⟩ := exists_of_bind hrun
  obtain ⟨hle, hW, hx⟩ := hx a q ha
  obtain ⟨hle', hV, hk⟩ := hk a q ha hle hW b r hb
  refine ⟨Nat.le_trans hle hle', hV, fun hopen => ?_⟩
  obtain ⟨hq, hnames', hrest⟩ := hk hopen
  obtain ⟨hp, hnames, hfirst⟩ := hx hq
  refine ⟨hp, hnames.trans hnames', fun hfresh => ?_⟩
  have hfirst := hfirst hfresh
  by_cases hq : e.Fresh q.names
  · rw [if_pos hq] at hfirst
    rw [bind_of_ok hfirst, hrest hq]
  · rw [if_neg hq] at hfirst
    rw [bind_of_error hfirst, if_neg fun h => hq (h.of_suffix hnames')]

/-- A step that gives the same result in the frame, and what comes after it. -/
theorem next {x y : Read α} {k : α → Read γ} {k' : α → Read δ} (hx : Copies e x y p)
    (hk : ∀ a q, x p = .ok (a, q) → Follows e V g (k a) (k' a) q) :
    Follows e V g (x >>= k) (y >>= k') p := hx.bind fun a q h _ _ => hk a q h

/-- A step that gives no names and no numbers. -/
theorem of_eq {x y : Read α} (h : ∀ a q, x p = .ok (a, q) → q.names = p.names ∧
    q.nextGroup = p.nextGroup ∧ (q.openComment = false →
      p.openComment = false ∧ y (e.place p) = .ok (a, e.place q))) : Copies e x y p := by
  intro a q hrun
  obtain ⟨hnames, hnumber, hy⟩ := h a q hrun
  refine ⟨Nat.le_of_eq hnumber.symm, trivial, fun hopen => ?_⟩
  obtain ⟨hp, hy⟩ := hy hopen
  rw [hnames]
  exact ⟨hp, List.suffix_rfl, fun hfresh => by rw [if_pos hfresh, hy]; rfl⟩

theorem result (a : α) (h : W p.nextGroup a) : Follows e W f (Pure.pure a) (Pure.pure (f a)) p := by
  intro b q hrun
  cases hrun
  exact ⟨Nat.le_refl _, h, fun hopen =>
    ⟨hopen, List.suffix_rfl, fun hfresh => by rw [if_pos hfresh]; rfl⟩⟩

theorem pure (a : α) : Keeps e (Pure.pure a) p := result a trivial

theorem throw {d : Defect} {y : Read β} : Follows e W f (throw d) y p := by
  intro a q hrun
  cases hrun

/-- Where nothing can be read, nothing has to follow. -/
theorem of_fails {x : Read α} {y : Read β} (h : ∀ r, x p ≠ .ok r) : Follows e W f x y p :=
  fun a q hrun => absurd hrun (h (a, q))

theorem ite {c : Prop} [Decidable c] {x x' : Read α} {y y' : Read β} (h : c → Follows e W f x y p)
    (h' : ¬ c → Follows e W f x' y' p) :
    Follows e W f (if c then x else x') (if c then y else y') p := by
  split
  · next hc => exact h hc
  · next hc => exact h' hc

/-- A step that is taken only under a condition. -/
theorem when {c : Prop} [Decidable c] {x y : Read Unit} {k : Unit → Read α} {k' : Unit → Read β}
    (hx : c → Copies e x y p) (hk : ∀ q, Follows e W f (k ()) (k' ()) q) :
    Follows e W f (if c then x >>= k else k ()) (if c then y >>= k' else k' ()) p :=
  .ite (fun hc => (hx hc).next fun _ q _ => hk q) fun _ => hk p

theorem rest {k : Text → Read α} {k' : Text → Read β}
    (h : Follows e W f (k p.rest) (k' (p.rest ++ ')' :: e.behind)) p) :
    Follows e W f (Read.rest >>= k) (Read.rest >>= k') p := h

theorem rest_right {x : Read α} {k' : Text → Read β} (h : Follows e W f x (k' (p.rest ++ ')' :: e.behind)) p) :
    Follows e W f x (Read.rest >>= k') p := h

theorem get {k : Progress → Read α} {k' : Progress → Read β}
    (h : Follows e W f (k p) (k' (e.place p)) p) :
    Follows e W f (MonadState.get >>= k) (MonadState.get >>= k') p := h

theorem flags {k : Flags → Read α} {k' : Flags → Read β}
    (h : Follows e W f (k p.flags) (k' p.flags) p) :
    Follows e W f (Read.flags >>= k) (Read.flags >>= k') p := h

theorem peek {k : Text → Read α} {k' : Text → Read β}
    (h : Follows e W f (k (ahead p)) (k' (ahead (e.place p))) p) :
    Follows e W f (peekAfter >>= k) (peekAfter >>= k') p := h

theorem setRest {s : Text} {x : Read α} {y : Read β} (h : Follows e W f x y { p with rest := s }) :
    Follows e W f (Read.setRest s >>= fun _ => x)
      (Read.setRest (s ++ ')' :: e.behind) >>= fun _ => y) p := h

theorem setFlags {fl : Flags} {x : Read α} {y : Read β} (h : Follows e W f x y { p with flags := fl }) :
    Follows e W f (Read.setFlags fl >>= fun _ => x) (Read.setFlags fl >>= fun _ => y) p := h

end Follows

end Crosscheck.Pattern
