import Crosscheck.Proofs.Patch.Modes
/-!
# Patching twice

Patching with the built-in rules twice is the same as patching once just when the passes of the first time
were enough. They are enough for every text in the modes without the rules that delete. In all others
no fixed number is: what is deleted can be put inside itself, and takes a pass for each time.
-/

namespace Crosscheck

open Text

namespace PatchRule

/-- Calls inside each other. The removal of one brings about the next. -/
def nested (opening : Text) (n : Nat) : Text :=
  (List.replicate n opening).flatten ++ List.replicate n ')'

/-- A text that begins with a character that is not in the rest of it and does not close a call. -/
def IsOpening (opening : Text) : Prop := ∃ ch t, opening = ch :: t ∧ ch ∉ t ∧ ch ≠ ')'

variable {opening : Text} {n : Nat}

private theorem keep_opening {ch : Char} {t : Text} (ht : ch ∉ t) (hch : ch ≠ ')') (n : Nat) (s : Text) :
    replaceFrom (ch :: t ++ [')']) [] 0 ((List.replicate n (ch :: t)).flatten ++ ch :: s) =
      (List.replicate n (ch :: t)).flatten ++ replaceFrom (ch :: t ++ [')']) [] 0 (ch :: s) := by
  induction n with
  | zero => rfl
  | succ n ih =>
      obtain ⟨r, hr⟩ : ∃ r, (List.replicate n (ch :: t)).flatten ++ ch :: s = ch :: r := by
        cases n with
        | zero => exact ⟨s, rfl⟩
        | succ n => exact ⟨_, rfl⟩
      have hopening : replaceFrom (ch :: t ++ [')']) [] 0 (ch :: t ++ ch :: r) =
          ch :: t ++ replaceFrom (ch :: t ++ [')']) [] 0 (ch :: r) := by
        rw [List.cons_append, List.cons_append, replaceFrom_keep, List.cons_append]
        · exact congrArg _ (replaceFrom_append rfl ht _)
        · intro hlead
          have hclosing : [')'] <+: ch :: r := (List.prefix_append_right_inj (ch :: t)).mp hlead
          exact hch (List.cons_prefix_cons.mp hclosing).1.symm
      rw [List.replicate_succ, List.flatten_cons, List.append_assoc, hr, hopening, ← hr, ih,
        List.append_assoc]

theorem replaceAll_nested (h : IsOpening opening) (n : Nat) :
    replaceAll (opening ++ [')']) [] (nested opening (n + 1)) = nested opening n := by
  obtain ⟨ch, t, rfl, ht, hch⟩ := h
  have hpart : ch :: t ++ [')'] ≠ [] := List.cons_ne_nil _ _
  have hclosing : replaceFrom (ch :: t ++ [')']) [] 0 (List.replicate n ')') = List.replicate n ')' := by
    have hkept : replaceFrom (ch :: t ++ [')']) [] 0 (List.replicate n ')' ++ []) =
        List.replicate n ')' ++ replaceFrom (ch :: t ++ [')']) [] 0 [] :=
      replaceFrom_append rfl (fun hmem => hch (List.eq_of_mem_replicate hmem)) []
    rwa [replaceFrom_nil, List.append_nil] at hkept
  have hinner : nested (ch :: t) (n + 1) = (List.replicate n (ch :: t)).flatten ++
      (ch :: t ++ [')'] ++ List.replicate n ')') := by
    rw [nested, List.replicate_succ', List.flatten_append, List.append_assoc, List.replicate_succ,
      List.flatten_singleton, List.append_assoc, List.singleton_append]
  have hsplit : ch :: t ++ [')'] ++ List.replicate n ')' = ch :: (t ++ [')'] ++ List.replicate n ')') :=
    rfl
  rw [replaceAll_eq hpart, hinner, hsplit, keep_opening ht hch, ← hsplit, replaceFrom_part hpart, hclosing,
    List.nil_append, nested]

theorem mem_nested {ch : Char} (h : ch ∈ nested opening n) : ch ∈ opening ++ [')'] := by
  rw [nested, List.mem_append] at h
  rcases h with hopening | hclosing
  · obtain ⟨t, ht, hch⟩ := List.mem_flatten.mp hopening
    rw [List.eq_of_mem_replicate ht] at hch
    exact List.mem_append_left _ hch
  · rw [List.eq_of_mem_replicate hclosing]
    exact List.mem_append_right _ List.mem_cons_self

private theorem not_occurs_literal {part by_ s : Text} {ch : Char} (hpart : ch ∈ part) (hs : ch ∉ s) :
    ¬ (Substitution.literal part by_).Occurs s := by
  intro h
  obtain ⟨p, q, rfl⟩ := occursIn_iff.mp h
  exact hs (List.mem_append_right p (List.mem_append_left q hpart))

private theorem not_occurs_pattern {s : Text} (hs : 'u' ∉ s) :
    ¬ (Substitution.pattern internalFunction "fun ").Occurs s := by
  intro h
  obtain ⟨p, _, q, rfl, ⟨w, -, rfl⟩, -⟩ := occurs_internalFunction.mp h
  refine hs (List.mem_append_right p (List.mem_append_left q (List.mem_append_right w ?_)))
  decide

end PatchRule

namespace Patcher

open PatchRule

variable {mode : PatchMode} {opening : Text} {rule : PatchRule} {before after : List PatchRule}

theorem lightens_activeRules (mode : PatchMode) :
    ∀ rule ∈ (builtIn mode).activeRules, rule.action.Lightens := by
  intro rule h
  have hmem : rule ∈ PatchRule.builtIn.filter fun rule => mode.enables rule.group := h
  exact lightens_builtIn (List.mem_of_mem_filter hmem)

/-! ## Calls inside each other -/

/-- A pass takes one call away if only one of the rules finds anything to do. -/
theorem sweep_nested (hrules : PatchRule.builtIn = before ++ rule :: after)
    (hactive : mode.enables rule.group) (hrule : rule.action = .literal (opening ++ [')']) [])
    (hopening : IsOpening opening)
    (hothers : ∀ other ∈ before ++ after, ∀ n, ¬ other.action.Occurs (nested opening n)) (n : Nat) :
    sweep (builtIn mode).activeRules (nested opening (n + 1)) = nested opening n := by
  have hkept {others : List PatchRule} (hmem : others ⊆ before ++ after)
      (hlist : others ⊆ PatchRule.builtIn) (n : Nat) :
      sweep (others.filter fun rule => mode.enables rule.group) (nested opening n) =
        nested opening n := by
    refine sweep_settled ?_ ?_
    · exact fun other h => lightens_builtIn (hlist (List.mem_of_mem_filter h))
    · exact fun other h => hothers other (hmem (List.mem_of_mem_filter h)) n
  have hbefore := hkept (List.subset_append_left before after)
    (hrules ▸ List.subset_append_left before (rule :: after)) (n + 1)
  have hafter := hkept (List.subset_append_right before after)
    (hrules ▸ List.Subset.trans (List.subset_cons_self rule after) (List.subset_append_right before _)) n
  have hremoved : rule.apply (nested opening (n + 1)) = nested opening n := by
    rw [PatchRule.apply, hrule]
    exact replaceAll_nested hopening n
  rw [activeRules_builtIn hrules hactive, sweep_append, hbefore, sweep_cons, hremoved, hafter]

theorem patch_nested (h : ∀ n, sweep (builtIn mode).activeRules (nested opening (n + 1)) = nested opening n)
    (n : Nat) : (builtIn mode).patch (nested opening n) = nested opening (n - maxPasses) := by
  have hpasses : ∀ k, (sweep (builtIn mode).activeRules)^[k] (nested opening n) =
      nested opening (n - k) := by
    intro k
    induction k with
    | zero => rfl
    | succ k ih =>
        rw [Function.iterate_succ_apply', ih, Nat.sub_add_eq]
        cases n - k with
        | zero =>
            have hempty := fun rule hrule => (lightens_activeRules mode rule hrule).not_occurs_nil
            exact sweep_settled (lightens_activeRules mode) hempty
        | succ left => exact h left
  rw [patch, patchWith, ← activeRules, settle_eq_iterate (lightens_activeRules mode), hpasses]

/-- As many supertypes inside each other as there are passes can be taken away, and no more. -/
theorem patch_supertypes (hmode : mode.conformance) (n : Nat) :
    (builtIn mode).patch (nested ": RawRepresentable(" n) =
      nested ": RawRepresentable(" (n - maxPasses) := by
  have hnone {ch : Char} (h : ch ∉ ": RawRepresentable(".toList ++ [')']) (n : Nat) :
      ch ∉ nested ": RawRepresentable(" n := mt mem_nested h
  refine patch_nested (sweep_nested
    (show PatchRule.builtIn = PatchRule.builtIn.take 1 ++ _ :: PatchRule.builtIn.drop 2 from rfl)
    hmode rfl ⟨':', _, rfl, by decide, by decide⟩ ?_) n
  intro rule hrule n
  simp only [PatchRule.builtIn, List.take_succ_cons, List.take_zero, List.drop_succ_cons, List.drop_zero,
    List.cons_append, List.nil_append, List.mem_cons, List.not_mem_nil, or_false] at hrule
  rcases hrule with rfl | rfl | rfl | rfl | rfl | rfl | rfl
  · exact not_occurs_pattern (hnone (by decide) n)
  all_goals exact not_occurs_literal List.mem_cons_self (hnone (by decide) n)

theorem patch_coercions (hmode : mode.stringCoercions) (n : Nat) :
    (builtIn mode).patch (nested "?.toSwiftString(" n) = nested "?.toSwiftString(" (n - maxPasses) := by
  have hnone {ch : Char} (h : ch ∉ "?.toSwiftString(".toList ++ [')']) (n : Nat) :
      ch ∉ nested "?.toSwiftString(" n := mt mem_nested h
  refine patch_nested (sweep_nested
    (show PatchRule.builtIn = PatchRule.builtIn.take 7 ++ _ :: [] from rfl)
    hmode rfl ⟨'?', _, rfl, by decide, by decide⟩ ?_) n
  intro rule hrule n
  simp only [PatchRule.builtIn, List.take_succ_cons, List.take_zero, List.append_nil, List.mem_cons,
    List.not_mem_nil, or_false] at hrule
  rcases hrule with rfl | rfl | rfl | rfl | rfl | rfl | rfl
  · exact not_occurs_pattern (hnone (by decide) n)
  all_goals exact not_occurs_literal List.mem_cons_self (hnone (by decide) n)

/-! ## Patching twice -/

/-- A text is left alone by a second patch, and nothing is left for a rule to do, just when it settles
within the passes that are made. -/
theorem patch_patch_iff (mode : PatchMode) (s : Text) :
    ((builtIn mode).patch ((builtIn mode).patch s) = (builtIn mode).patch s ↔
        SettlesWithin (builtIn mode).activeRules maxPasses s) ∧
      (Settled (builtIn mode).activeRules ((builtIn mode).patch s) ↔
        SettlesWithin (builtIn mode).activeRules maxPasses s) := by
  have h := lightens_activeRules mode
  have hsettled : Settled (builtIn mode).activeRules ((builtIn mode).patch s) ↔
      SettlesWithin (builtIn mode).activeRules maxPasses s := settled_settle_iff h
  refine ⟨?_, hsettled⟩
  rw [← hsettled]
  exact settle_eq_iff h (by decide)

/-- Patching is idempotent in the modes without the rules that delete, and in no others. In every mode, it
is so for the texts that settle within the passes that are made; half the weight of a text is a bound for
the passes that it takes. -/
theorem patch_idempotent_iff (mode : PatchMode) :
    ((∀ s, (builtIn mode).patch ((builtIn mode).patch s) = (builtIn mode).patch s ∧
          Settled (builtIn mode).activeRules ((builtIn mode).patch s)) ↔
        mode.conformance = false ∧ mode.stringCoercions = false) ∧
      ∀ s, ((builtIn mode).patch ((builtIn mode).patch s) = (builtIn mode).patch s ↔
          SettlesWithin (builtIn mode).activeRules maxPasses s) ∧
        (Settled (builtIn mode).activeRules ((builtIn mode).patch s) ↔
          SettlesWithin (builtIn mode).activeRules maxPasses s) ∧
        SettlesWithin (builtIn mode).activeRules (weight s / 2) s := by
  refine ⟨⟨?_, ?_⟩, ?_⟩
  · intro h
    refine ⟨?_, ?_⟩
    · rw [← Bool.not_eq_true]
      intro hmode
      have htwice := (h (nested ": RawRepresentable(" (maxPasses + 1))).1
      rw [patch_supertypes hmode, patch_supertypes hmode] at htwice
      exact absurd htwice (by decide)
    · rw [← Bool.not_eq_true]
      intro hmode
      have htwice := (h (nested "?.toSwiftString(" (maxPasses + 1))).1
      rw [patch_coercions hmode, patch_coercions hmode] at htwice
      exact absurd htwice (by decide)
  · intro hmode s
    have hwithin : SettlesWithin (builtIn mode).activeRules maxPasses s :=
      ⟨1, by decide, settled_sweep hmode s⟩
    exact ⟨(patch_patch_iff mode s).1.mpr hwithin, (patch_patch_iff mode s).2.mpr hwithin⟩
  · intro s
    obtain ⟨htwice, hsettled⟩ := patch_patch_iff mode s
    exact ⟨htwice, hsettled, settlesWithin_weight (lightens_activeRules mode) s⟩

/-- One supertype more than there are passes, and the second patch removes what the first has left. -/
theorem patch_patch_nested_ne :
    (builtIn .default).patch ((builtIn .default).patch (nested ": RawRepresentable(" 65)) ≠
      (builtIn .default).patch (nested ": RawRepresentable(" 65) := by
  rw [patch_supertypes rfl, patch_supertypes rfl]
  decide

end Patcher

end Crosscheck
