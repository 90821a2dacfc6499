import Crosscheck.Conditional.Block
import Crosscheck.Proofs.Pattern.Enclosed
/-!
# Renaming groups

Groups record what was matched and have no influence on it. A pattern whose groups are given other numbers,
or none, therefore matches the same texts in the same order of preference, and records the same under the
new numbers.
-/

namespace Crosscheck

variable {α β : Type} {f : Nat → Option Nat} {φ : α → β}

/-- The recorded texts under the new numbers of their groups; what has none is left out. -/
def Groups.relabel (f : Nat → Option Nat) (g : Groups) : Groups :=
  g.filterMap fun entry => (f entry.1).map fun i => (i, entry.2)

theorem Groups.lookup_relabel {i j : Nat} (hi : f i = some j) (honly : ∀ i', f i' = some j → i' = i)
    (g : Groups) : (Groups.relabel f g).lookup j = g.lookup i := by
  induction g with
  | nil => rfl
  | cons entry g ih =>
      obtain ⟨i', t⟩ := entry
      unfold relabel at ih ⊢
      rw [List.filterMap_cons, List.lookup_cons]
      cases hf : f i' with
      | none =>
          have hne : (i == i') = false := by
            rw [beq_eq_false_iff_ne]
            rintro rfl
            rw [hi] at hf
            cases hf
          rw [hne]
          exact ih
      | some j' =>
          rw [Option.map_some, List.lookup_cons]
          by_cases heq : i' = i
          · subst heq
            obtain rfl := Option.some.inj (hi.symm.trans hf)
            rw [beq_self_eq_true, beq_self_eq_true]
          · have hne : j ≠ j' := fun h => heq (honly i' (h ▸ hf))
            rw [beq_eq_false_iff_ne.mpr hne, beq_eq_false_iff_ne.mpr (Ne.symm heq)]
            exact ih

namespace Pattern

/-- The pattern with other numbers for its groups; a group without a new number is none any more. -/
def relabel (f : Nat → Option Nat) : Pattern → Pattern
  | .seq p q => .seq (p.relabel f) (q.relabel f)
  | .alt p q => .alt (p.relabel f) (q.relabel f)
  | .group i p =>
    match f i with
    | some j => .group j (p.relabel f)
    | none => p.relabel f
  | .rounds p least most greedy => .rounds (p.relabel f) least most greedy
  | p => p

/-! ## Matching -/

/-- What `k'` gives for renamed groups is what `k` gives for them, up to `φ`. -/
def Tracks (f : Nat → Option Nat) (φ : α → β) (k : Continuation α) (k' : Continuation β) : Prop :=
  ∀ c g, k' c (Groups.relabel f g) = (k c g).map φ

namespace Tracks

variable {k l : Continuation α} {k' l' : Continuation β} {step : Continuation α → Continuation α}
  {step' : Continuation β → Continuation β} {greedy : Bool}

/-- The second of two ways is taken where the first one fails. -/
theorem orElse (h : Tracks f φ k k') (h' : Tracks f φ l l') : Tracks f φ
    (fun c g => match k c g with
      | some r => some r
      | none => l c g)
    (fun c g => match k' c g with
      | some r => some r
      | none => l' c g) := by
  intro c g
  dsimp only
  rw [h c g]
  cases k c g with
  | some r => rfl
  | none => exact h' c g

theorem either (h : Tracks f φ k k') (h' : Tracks f φ l l') :
    Tracks f φ (either greedy k l) (either greedy k' l') := by
  cases greedy with
  | true => exact h.orElse h'
  | false => exact h'.orElse h

variable (hstep : ∀ {k : Continuation α} {k' : Continuation β},
  Tracks f φ k k' → Tracks f φ (step k) (step' k'))
include hstep

theorem exactly (h : Tracks f φ k k') (n : Nat) :
    Tracks f φ (exactly step k n) (exactly step' k' n) := by
  induction n with
  | zero => exact h
  | succ n ih => exact hstep ih

theorem upTo (h : Tracks f φ k k') (n : Nat) :
    Tracks f φ (upTo step greedy k n) (upTo step' greedy k' n) := by
  induction n with
  | zero => exact h
  | succ n ih => exact (hstep ih).either h

theorem further (h : Tracks f φ k k') (n : Nat) :
    Tracks f φ (further step greedy k n) (further step' greedy k' n) := by
  induction n with
  | zero => exact h
  | succ n ih =>
      intro c g
      refine Tracks.either (hstep fun d i => ?_) h c g
      split
      · rfl
      · exact ih d i

theorem repeated (h : Tracks f φ k k') :
    Tracks f φ (repeated step greedy k) (repeated step' greedy k') := by
  intro c g
  refine hstep (fun d i => ?_) c g
  split
  · exact h d i
  · exact further hstep h d.rest.length d i

theorem atLeast (h : Tracks f φ k k') (n : Nat) :
    Tracks f φ (atLeast step greedy k n) (atLeast step' greedy k' n) := by
  cases n with
  | zero => exact (repeated hstep h).either h
  | succ n => exact exactly hstep (repeated hstep h) n

end Tracks

/-- Matching with renamed groups is matching, with the recorded groups renamed. -/
theorem tracks_run (p : Pattern) {k : Continuation α} {k' : Continuation β} (h : Tracks f φ k k') :
    Tracks f φ (p.run k) ((p.relabel f).run k') := by
  induction p generalizing k k' with
  | empty => exact h
  | char ch =>
      intro c g
      unfold relabel run
      cases c.rest with
      | nil => rfl
      | cons d rest =>
          dsimp only
          split
          · exact h _ g
          · rfl
  | set s =>
      intro c g
      unfold relabel run
      cases c.rest with
      | nil => rfl
      | cons d rest =>
          dsimp only
          split
          · exact h _ g
          · rfl
  | anchor a letters =>
      intro c g
      unfold relabel run
      split
      · exact h c g
      · rfl
  | seq p q ihp ihq => exact ihp (ihq h)
  | alt p q ihp ihq => exact (ihp h).orElse (ihq h)
  | group i p ih =>
      intro c g
      unfold relabel
      have hrecord : ∀ d i', (Groups.relabel f ((i, c.textTo d) :: i')) =
          ((f i).map fun j => (j, c.textTo d)).toList ++ Groups.relabel f i' := by
        intro d i'
        unfold Groups.relabel
        rw [List.filterMap_cons]
        cases f i <;> rfl
      cases hf : f i with
      | none =>
          refine ih (fun d i' => ?_) c g
          rw [← h d, hrecord, hf]
          rfl
      | some j =>
          refine ih (fun d i' => ?_) c g
          rw [← h d, hrecord, hf]
          rfl
  | rounds p least most greedy ih =>
      cases most with
      | some most => exact Tracks.exactly ih (Tracks.upTo ih h _) least
      | none => exact Tracks.atLeast ih h least

/-! ## The groups of a part -/

variable {lo hi j : Nat}

/-- Groups that are not asked for can be left out. -/
theorem relabel_shift {p : Pattern} (hp : p.Numbered lo hi)
    (h : ∀ i, lo ≤ i → i < hi → f (i + j) = none) : (p.shift j).relabel f = p.ungrouped := by
  induction p with
  | seq p q ihp ihq => exact congrArg₂ Pattern.seq (ihp hp.1) (ihq hp.2)
  | alt p q ihp ihq => exact congrArg₂ Pattern.alt (ihp hp.1) (ihq hp.2)
  | group i p ih =>
      rw [shift, relabel, h i hp.1.1 hp.1.2]
      exact ih hp.2
  | rounds p least most greedy ih => exact congrArg (Pattern.rounds · least most greedy) (ih hp)
  | _ => rfl

theorem relabel_chain (ps : List Pattern) : (chain ps).relabel f = chain (ps.map (relabel f)) :=
  map_chain rfl (fun _ _ => rfl) ps

theorem relabel_choice (ps : List Pattern) : (choice ps).relabel f = choice (ps.map (relabel f)) :=
  map_choice rfl (fun _ _ => rfl) ps

@[simp]
theorem room_shift (p : Pattern) (j : Nat) : (p.shift j).room = p.room := by
  induction p with
  | seq p q ihp ihq => simp only [shift, room, ihp, ihq]
  | alt p q ihp ihq => simp only [shift, room, ihp, ihq]
  | group i p ih => simp only [shift, room, ih]
  | rounds p least most greedy ih => simp only [shift, room, ih]
  | _ => rfl

end Pattern

/-! ## Matches -/

/-- The match with its groups renamed. -/
def Match.relabel (f : Nat → Option Nat) (m : Match) : Match :=
  { m with groups := Groups.relabel f m.groups }

namespace Regex

variable {r r' : Regex}

/-- What `r'` matches is what `r` matches, with the groups renamed. -/
def Relabels (f : Nat → Option Nat) (r r' : Regex) : Prop :=
  ∀ c, r'.matchAt? c = (r.matchAt? c).map fun found => (Match.relabel f found.1, found.2)

/-- A pattern that runs as the renamed one matches the same. -/
theorem relabels_of_run (h0 : f 0 = some 0) (h : ∀ k : Pattern.Continuation (Match × Cursor),
    r'.pattern.run k = (r.pattern.relabel f).run k) : Relabels f r r' := by
  intro c
  rw [matchAt?, h]
  refine Pattern.tracks_run r.pattern (fun d g => ?_) c []
  have hrecord : Groups.relabel f ((0, c.textTo d) :: g) = (0, c.textTo d) :: Groups.relabel f g := by
    unfold Groups.relabel
    rw [List.filterMap_cons, h0]
    rfl
  rw [Option.map_some, Match.relabel, hrecord]

namespace Relabels

variable (h : Relabels f r r')
include h

theorem find?_eq (c : Cursor) :
    r'.find? c = (r.find? c).map fun found => (Match.relabel f found.1, found.2) := by
  obtain ⟨previous, offset, rest⟩ := c
  unfold find?
  dsimp only
  induction rest generalizing previous offset with
  | nil => exact h _
  | cons ch rest ih =>
      rw [findFrom, findFrom, h]
      cases r.matchAt? ⟨previous, offset, ch :: rest⟩ with
      | some found => rfl
      | none => exact ih _ _

theorem matchesFrom_eq (bound : Nat) (c : Cursor) (last : Option Nat) :
    r'.matchesFrom bound c last = (r.matchesFrom bound c last).map (Match.relabel f) := by
  induction bound generalizing c last with
  | zero => rfl
  | succ bound ih =>
      rw [matchesFrom, matchesFrom, h.find?_eq]
      cases r.find? c with
      | none => rfl
      | some found =>
          obtain ⟨m, after⟩ := found
          have hempty : (Match.relabel f m).isEmpty = m.isEmpty := rfl
          have hstop : (Match.relabel f m).stop = m.stop := rfl
          dsimp only [Option.map_some]
          rw [hempty, hstop]
          split
          · cases c.next? with
            | none => rfl
            | some next =>
                obtain ⟨_, c⟩ := next
                dsimp only
                rw [h.find?_eq]
                cases r.find? c with
                | none => rfl
                | some found => exact congrArg (List.cons _) (ih _ _)
          · exact congrArg (List.cons _) (ih _ _)

theorem allMatches_eq (s : Text) : r'.allMatches s = (r.allMatches s).map (Match.relabel f) :=
  h.matchesFrom_eq _ _ _

end Relabels

end Regex

end Crosscheck
