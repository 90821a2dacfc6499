import Crosscheck.Proofs.Patch.Idempotence
/-!
# How patching ends

Whatever the rules are, a patcher stops at a text that none of them changes, or after as many passes as it
makes at most, in each of which some rule has changed the text. The built-in rules come to such a text by
themselves: every change takes 2 or more off the weight, so half the weight is enough passes.
-/

namespace Crosscheck

open Text

/-- A substitution that is carried out once: all occurrences of the part, or all matches of the pattern, are
replaced at a time. -/
inductive Substitution.Turns : Substitution → Text → Text → Prop
  | literal (part by_ s : Text) : Turns (.literal part by_) s (replaceAll part by_ s)
  | pattern (regex : Regex) (template s : Text) :
      Turns (.pattern regex template) s (regex.replaceAll template s)

theorem Substitution.turns_iff {a : Substitution} {s t : Text} : a.Turns s t ↔ a.apply s = t := by
  constructor
  · rintro (_ | _)
    · rfl
    · rfl
  · rintro rfl
    cases a with
    | literal part by_ => exact .literal part by_ s
    | pattern regex template => exact .pattern regex template s

namespace Patcher

variable {rules : List PatchRule} {s t : Text} {n bound changed : Nat}

/-- None of the rules changes the text. -/
def Unchanged (rules : List PatchRule) (s : Text) : Prop := ∀ rule ∈ rules, rule.action.Turns s s

/-- One pass: the rules in their order, each of which gets what the one before it leaves. The number is that
of the rules that change the text that they get. -/
inductive Pass : List PatchRule → Nat → Text → Text → Prop
  | done (s : Text) : Pass [] 0 s s
  | keep {rule : PatchRule} {rules : List PatchRule} {changed : Nat} {s t : Text}
      (hkept : rule.action.Turns s s) (hrest : Pass rules changed s t) : Pass (rule :: rules) changed s t
  | change {rule : PatchRule} {rules : List PatchRule} {changed : Nat} {s t u : Text}
      (hturned : rule.action.Turns s t) (hne : t ≠ s) (hrest : Pass rules changed t u) :
      Pass (rule :: rules) (changed + 1) s u

/-- `n` passes, in each of which some rule changes the text, lead from one text to another. The texts before
and after a pass can be the same, as one rule may undo what another one does. -/
inductive Passes (rules : List PatchRule) : Nat → Text → Text → Prop
  | none (s : Text) : Passes rules 0 s s
  | more {n changed : Nat} {s t u : Text} (hpass : Pass rules changed s t) (hchanged : 0 < changed)
      (hrest : Passes rules n t u) : Passes rules (n + 1) s u

/-- In the mode with all groups, all rules run. -/
theorem rulesIn_full (p : Patcher) : p.rulesIn .full = p.rules := by
  refine List.filter_eq_self.mpr fun rule _ => ?_
  cases rule.group <;> rfl

/-! ## One pass -/

/-- There is a pass from every text, and it ends where the rules applied in order do. -/
theorem exists_pass (rules : List PatchRule) (s : Text) :
    ∃ changed, Pass rules changed s (sweep rules s) := by
  induction rules generalizing s with
  | nil => exact ⟨0, .done s⟩
  | cons rule rules ih =>
      obtain ⟨changed, hrest⟩ := ih (rule.apply s)
      by_cases hrule : rule.apply s = s
      · rw [sweep_cons, hrule]
        rw [hrule] at hrest
        exact ⟨changed, .keep (Substitution.turns_iff.mpr hrule) hrest⟩
      · exact ⟨changed + 1, .change (Substitution.turns_iff.mpr rfl) hrule hrest⟩

theorem Pass.sweep_eq (h : Pass rules changed s t) : sweep rules s = t := by
  induction h with
  | done s => rfl
  | keep hkept _ ih =>
      rw [sweep_cons, PatchRule.apply, Substitution.turns_iff.mp hkept]
      exact ih
  | change hturned _ _ ih =>
      rw [sweep_cons, PatchRule.apply, Substitution.turns_iff.mp hturned]
      exact ih

/-- The change that is recorded along a pass is that of some rule. -/
theorem Pass.changes_iff (h : Pass rules changed s t) : changes rules s ↔ 0 < changed := by
  induction h with
  | done s => simp [changes]
  | keep hkept _ ih =>
      rw [changes, PatchRule.apply, Substitution.turns_iff.mp hkept, bne_self_eq_false, Bool.false_or]
      exact ih
  | change hturned hne _ _ =>
      rw [changes, PatchRule.apply, Substitution.turns_iff.mp hturned, bne_iff_ne.mpr hne, Bool.true_or]
      exact iff_of_true rfl (Nat.succ_pos _)

/-- A pass without any change is one in which each rule, taken by itself, leaves the text as it is. -/
theorem Pass.unchanged_iff (h : Pass rules changed s t) : Unchanged rules s ↔ changed = 0 := by
  induction h with
  | done s => simp [Unchanged]
  | keep hkept _ ih => rw [Unchanged, List.forall_mem_cons, and_iff_right hkept, ← ih, Unchanged]
  | change hturned hne _ _ =>
      refine iff_of_false ?_ (Nat.succ_ne_zero _)
      intro hkept
      have hself := Substitution.turns_iff.mp (hkept _ List.mem_cons_self)
      exact hne ((Substitution.turns_iff.mp hturned).symm.trans hself)

theorem settle_of_pass (h : Pass rules changed s t) (hchanged : 0 < changed) :
    settle rules (bound + 1) s = settle rules bound t := by
  rw [settle, if_pos (h.changes_iff.mpr hchanged), h.sweep_eq]

theorem settle_of_unchanged (h : Unchanged rules s) : settle rules bound s = s := by
  cases bound with
  | zero => rfl
  | succ bound =>
      obtain ⟨changed, hpass⟩ := exists_pass rules s
      have hnone := hpass.unchanged_iff.mp h
      rw [settle, if_neg (mt hpass.changes_iff.mp (Nat.not_lt.mpr (Nat.le_of_eq hnone)))]

/-! ## All passes -/

/-- The passes go on until nothing changes, or until there have been as many as the bound allows. -/
theorem passes_settle (rules : List PatchRule) (bound : Nat) (s : Text) :
    ∃ n, Passes rules n s (settle rules bound s) ∧
      (n < bound ∧ Unchanged rules (settle rules bound s) ∨ n = bound) := by
  induction bound generalizing s with
  | zero => exact ⟨0, .none s, .inr rfl⟩
  | succ bound ih =>
      obtain ⟨changed, hpass⟩ := exists_pass rules s
      by_cases hchanged : 0 < changed
      · obtain ⟨n, hpasses, hend⟩ := ih (sweep rules s)
        rw [settle_of_pass hpass hchanged]
        exact ⟨n + 1, .more hpass hchanged hpasses,
          hend.imp (And.imp_left Nat.succ_lt_succ) (congrArg Nat.succ)⟩
      · have hkept := hpass.unchanged_iff.mpr (Nat.eq_zero_of_not_pos hchanged)
        rw [settle_of_unchanged hkept]
        exact ⟨0, .none s, .inl ⟨Nat.succ_pos bound, hkept⟩⟩

/-- A text that nothing changes is handed out as soon as the bound allows the passes that lead to it. -/
theorem Passes.settle_eq (h : Passes rules n s t) (ht : Unchanged rules t) (hbound : n ≤ bound) :
    settle rules bound s = t := by
  induction h generalizing bound with
  | none s => exact settle_of_unchanged ht
  | more hpass hchanged _ ih =>
      obtain ⟨k, rfl⟩ := Nat.exists_eq_add_of_le' hbound
      rw [← Nat.add_assoc, settle_of_pass hpass hchanged]
      exact ih ht (Nat.le_add_left _ k)

/-- For every list of rules, at most 64 passes are made with those of the active groups. The text that is
handed out is one that each active rule leaves as it is, and then patching leaves it as it is, too; or it
comes after 64 passes in each of which a rule has changed the text. Rules of other groups make no difference,
and neither does the patcher's own mode: a patcher with the active rules alone, which runs all that it has,
hands out the same. -/
theorem patchWith_settles_or_exhausts (p : Patcher) (mode : PatchMode) (s : Text) :
    (∃ n, Passes (p.rules.filter fun rule => mode.enables rule.group) n s (p.patchWith mode s) ∧
      (n < 64 ∧
          Unchanged (p.rules.filter fun rule => mode.enables rule.group) (p.patchWith mode s) ∧
          p.patchWith mode (p.patchWith mode s) = p.patchWith mode s ∨
        n = 64)) ∧
      (Patcher.mk (p.rules.filter fun rule => mode.enables rule.group) .full).patch s =
        p.patchWith mode s ∧
      ∀ own, (Patcher.mk p.rules own).patchWith mode s = p.patchWith mode s ∧
        (Patcher.mk (p.rules.filter fun rule => mode.enables rule.group) own).patchWith mode s =
          p.patchWith mode s := by
  refine ⟨?_, ?_, fun own => ⟨rfl, ?_⟩⟩
  · obtain ⟨n, hpasses, hend⟩ := passes_settle (p.rulesIn mode) maxPasses s
    refine ⟨n, hpasses, hend.imp_left ?_⟩
    intro ⟨hn, hkept⟩
    exact ⟨hn, hkept, settle_of_unchanged hkept⟩
  · rw [patch, patchWith, rulesIn_full, patchWith, rulesIn]
  · have hactive : (Patcher.mk (p.rulesIn mode) own).rulesIn mode = p.rulesIn mode := by
      rw [rulesIn, rulesIn, List.filter_filter]
      simp only [Bool.and_self]
    rw [patchWith, ← rulesIn, hactive, patchWith]

/-- Two rules that undo each other's changes both change a text that is the same after every pass. -/
example :
    let rules : List PatchRule := [.literal "there" .visibility "a" "b", .literal "back" .visibility "b" "a"]
    changes rules "a" ∧ sweep rules "a" = "a".toList := by decide

/-! ## The built-in rules -/

section Lightening

variable (h : ∀ rule ∈ rules, rule.action.Lightens)

include h

theorem Pass.not_settled_iff (hpass : Pass rules changed s t) : ¬ Settled rules s ↔ 0 < changed := by
  rw [← hpass.changes_iff, ← changes_eq_false_iff h, Bool.not_eq_false]

theorem exists_passes (s : Text) :
    ∃ n t, Passes rules n s t ∧ Unchanged rules t ∧ weight t + 2 * n ≤ weight s := by
  induction hn : weight s using Nat.strongRecOn generalizing s with
  | ind w ih =>
      obtain ⟨changed, hpass⟩ := exists_pass rules s
      by_cases hchanged : 0 < changed
      · have hlighter := weight_sweep_add_two_le h ((hpass.not_settled_iff h).mpr hchanged)
        obtain ⟨n, t, hpasses, ht, hweight⟩ := ih (weight (sweep rules s)) (by omega) (sweep rules s) rfl
        exact ⟨n + 1, t, .more hpass hchanged hpasses, ht, by omega⟩
      · exact ⟨0, s, .none s, hpass.unchanged_iff.mpr (Nat.eq_zero_of_not_pos hchanged), by omega⟩

end Lightening

/-- A built-in rule that changes a text takes 2 or more off its weight. So in every mode, passes without any
limit come to a text that no active rule changes after at most half as many of them as the text weighs,
and texts of weight 128 or less are patched to that text. -/
theorem builtIn_settles (mode : PatchMode) (s : Text) :
    (∀ rule ∈ PatchRule.builtIn, rule.apply s ≠ s → weight (rule.apply s) + 2 ≤ weight s) ∧
      ∃ n ≤ weight s / 2, ∃ t, Passes (builtIn mode).activeRules n s t ∧
        Unchanged (builtIn mode).activeRules t ∧ (weight s ≤ 128 → (builtIn mode).patch s = t) := by
  refine ⟨?_, ?_⟩
  · intro rule hrule hchanged
    have hlightens := PatchRule.lightens_builtIn hrule
    exact hlightens.lightens (not_not.mp (mt hlightens.keeps hchanged))
  · obtain ⟨n, t, hpasses, ht, hweight⟩ := exists_passes (lightens_activeRules mode) s
    refine ⟨n, by omega, t, hpasses, ht, ?_⟩
    intro hlight
    exact hpasses.settle_eq ht (by rw [maxPasses]; omega)

/-- A coercion inside another one: the removal of the inner one puts the outer one together. -/
private def coercions : Text := "f()?.toSwift?.toSwiftString()String()"

theorem builtIn_settles_coercions :
    (∃ rule ∈ PatchRule.builtIn, rule.apply coercions ≠ coercions ∧
        weight (rule.apply coercions) + 2 ≤ weight coercions) ∧
      weight coercions ≤ 128 ∧ (builtIn .full).patch coercions = "f()".toList ∧
        Unchanged (builtIn .full).activeRules "f()" := by
  have hrule : PatchRule.literal "swift-string-coercion" .stringCoercions "?.toSwiftString()" [] ∈
      PatchRule.builtIn := List.mem_of_getLast? rfl
  have hchanged : (PatchRule.literal "swift-string-coercion" .stringCoercions "?.toSwiftString()" []).apply
      coercions ≠ coercions := by decide
  have hlight : weight coercions ≤ 128 := by decide
  have hpatched : (builtIn .full).patch coercions = "f()".toList := by decide +kernel
  obtain ⟨hlightens, -, -, t, -, ht, hpatch⟩ := builtIn_settles .full coercions
  obtain rfl := (hpatch hlight).symm.trans hpatched
  exact ⟨⟨_, hrule, hchanged, hlightens _ hrule hchanged⟩, hlight, hpatched, ht⟩

end Patcher

end Crosscheck
