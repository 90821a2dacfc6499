import Crosscheck.Proofs.Patch.Passes
/-!
# Modes that settle at once

Of the built-in rules, only the two that delete bring occurrences about, of themselves and of others.
Where neither of their groups is active, every rule leaves nothing of what it looks for, and none of the
later ones brings it about, so one pass settles every text.
-/

namespace Crosscheck

open Text

namespace Substitution

/-- A text for a text, neither of which is empty and the new one of which has nothing to do with `other`:
no end of one agrees with the start of the other. -/
def Apart (other : Text) : Substitution → Prop
  | .literal part by_ => part ≠ [] ∧ by_ ≠ [] ∧ other.Avoids by_ ∧ by_.Avoids other
  | .pattern _ _ => False

instance (other : Text) : (a : Substitution) → Decidable (a.Apart other)
  | .literal part by_ =>
    inferInstanceAs (Decidable (part ≠ [] ∧ by_ ≠ [] ∧ other.Avoids by_ ∧ by_.Avoids other))
  | .pattern _ _ => inferInstanceAs (Decidable False)

/-- Apart from what it looks for, a substitution leaves nothing of it. -/
theorem Apart.clears {part by_ : Text} (h : (Substitution.literal part by_).Apart part) (s : Text) :
    ¬ (Substitution.literal part by_).Occurs ((Substitution.literal part by_).apply s) := by
  obtain ⟨hpart, -, hpb, hbp⟩ := h
  rw [Occurs, Substitution.apply, replaceAll_eq hpart, not_occursIn_replaceFrom hpart hpb hbp]
  exact Bool.false_ne_true

end Substitution

namespace PatchRule

theorem occurs_internalFunction {s : Text} :
    (Substitution.pattern internalFunction "fun ").Occurs s ↔ Stands EndsNoWord IsModified none s := by
  rw [Substitution.Occurs, ne_eq, consuming_internalFunction.allMatches_eq_nil]
  exact find?_ne_none_iff

theorem internalFunction_clears (s : Text) :
    ¬ (Substitution.pattern internalFunction "fun ").Occurs
      ((Substitution.pattern internalFunction "fun ").apply s) := by
  rw [occurs_internalFunction, Substitution.apply,
    Regex.replaceAll_eq_rewriteAt consuming_internalFunction]
  exact not_stands_rewriteAt (fun _ => rfl) (Cursor.start s)

/-- No application of the rule brings about what the substitution looks for. -/
def Keeps (rule : PatchRule) (a : Substitution) : Prop :=
  ∀ {s}, a.Occurs (rule.apply s) → a.Occurs s

variable {rule : PatchRule} {part by_ other with_ : Text}

theorem keeps_literal (hrule : rule.action.Apart other) : rule.Keeps (.literal other with_) := by
  intro s h
  rw [apply] at h
  cases haction : rule.action with
  | literal part by_ =>
      rw [haction] at h hrule
      obtain ⟨hpart, hby, hother⟩ := hrule
      rw [Substitution.apply, replaceAll_eq hpart] at h
      have hstands := occursIn_iff_stands.mp h
      refine occursIn_iff_stands.mpr (stands_of_replaceFrom hpart hby ?_ id hstands)
      intro w hw
      rwa [hw]
  | pattern regex template =>
      rw [haction] at hrule
      exact hrule.elim

theorem keeps_modifier (hrule : rule.action = .literal part by_) (hpart : part ≠ [])
    (hedge : EndsNoWord by_.getLast? → EndsNoWord part.getLast?)
    (hhead : ∃ ch, by_.head? = some ch ∧ ch ∉ modifierLetters)
    (hlast : ∃ ch, by_.getLast? = some ch ∧ ch ∉ modifierLetters)
    (hfun : 'f' ∉ by_) : rule.Keeps (.pattern internalFunction "fun ") := by
  intro s h
  obtain ⟨ch, hch, hnone⟩ := hhead
  obtain ⟨ch', hch', hnone'⟩ := hlast
  rw [apply, hrule, Substitution.apply, replaceAll_eq hpart, occurs_internalFunction] at h
  refine occurs_internalFunction.mpr (stands_of_replaceFrom hpart ?_ ?_ hedge h)
  · exact List.ne_nil_of_mem (List.mem_of_head? hch)
  · intro w hw
    obtain ⟨v, -, hv⟩ := id hw
    have hletter : 'f' ∈ w := by
      rw [hv]
      exact List.mem_append_right v (by decide)
    exact ⟨.of_head hch (mt hw.mem hnone), .of_last hch' (mt hw.mem hnone') hletter hfun⟩

end PatchRule

namespace Patcher

open PatchRule

variable {mode : PatchMode} {rules before after : List PatchRule} {rule : PatchRule}

theorem occurs_of_sweep {a : Substitution} (h : ∀ rule ∈ rules, rule.Keeps a) {s : Text}
    (hs : a.Occurs (sweep rules s)) : a.Occurs s := by
  induction rules generalizing s with
  | nil => exact hs
  | cons rule rules ih =>
      obtain ⟨hrule, hrules⟩ := List.forall_mem_cons.mp h
      exact hrule (ih hrules hs)

theorem activeRules_builtIn (h : PatchRule.builtIn = before ++ rule :: after)
    (hrule : mode.enables rule.group) : (builtIn mode).activeRules =
      before.filter (fun rule => mode.enables rule.group) ++
        rule :: after.filter (fun rule => mode.enables rule.group) := by
  rw [← List.filter_cons_of_pos (by exact hrule), ← List.filter_append, ← h]
  rfl

theorem not_occurs_sweep (h : PatchRule.builtIn = before ++ rule :: after)
    (hrule : mode.enables rule.group) (hclears : ∀ s, ¬ rule.action.Occurs (rule.apply s))
    (hkeeps : ∀ other ∈ after, mode.enables other.group → other.Keeps rule.action) (s : Text) :
    ¬ rule.action.Occurs (sweep (builtIn mode).activeRules s) := by
  rw [activeRules_builtIn h hrule, sweep_append, sweep_cons]
  refine mt (occurs_of_sweep ?_) (hclears _)
  intro other hother
  obtain ⟨hmem, hactive⟩ := List.mem_filter.mp hother
  exact hkeeps other hmem hactive

section Exchanges

variable (hmode : mode.conformance = false ∧ mode.stringCoercions = false)

include hmode

private theorem enables_exchange (hrule : mode.enables rule.group) :
    rule.group ≠ .conformance ∧ rule.group ≠ .stringCoercions := by
  refine ⟨?_, ?_⟩
  all_goals
    intro hgroup
    rw [hgroup, PatchMode.enables] at hrule
  · exact absurd hrule (by simp [hmode.1])
  · exact absurd hrule (by simp [hmode.2])

theorem not_occurs_exchange {part by_ : Text} (hmem : rule ∈ PatchRule.builtIn.drop 1)
    (hrule : rule.action = .literal part by_) (hactive : mode.enables rule.group)
    (hapart : ∀ other ∈ PatchRule.builtIn.drop 1, other.group = .conformance ∨
      other.group = .stringCoercions ∨ other.action.Apart part) (s : Text) :
    ¬ rule.action.Occurs (sweep (builtIn mode).activeRules s) := by
  have hthis : ∀ other ∈ PatchRule.builtIn.drop 1, mode.enables other.group →
      other.action.Apart part := by
    intro other hother henabled
    obtain ⟨hconformance, hcoercion⟩ := enables_exchange hmode henabled
    rcases hapart other hother with h | h | h
    · exact absurd h hconformance
    · exact absurd h hcoercion
    · exact h
  obtain ⟨before, after, hsplit⟩ := List.append_of_mem hmem
  have hrules : PatchRule.builtIn = (PatchRule.builtIn.take 1 ++ before) ++ rule :: after := by
    rw [List.append_assoc, ← hsplit, List.take_append_drop]
  refine not_occurs_sweep hrules hactive ?_ ?_ s
  · intro s
    have happly : rule.apply s = Substitution.apply (.literal part by_) s := by
      rw [PatchRule.apply, hrule]
    have hself := hthis rule hmem hactive
    rw [hrule] at hself ⊢
    rw [happly]
    exact hself.clears s
  · intro other hother henabled
    rw [hrule]
    refine PatchRule.keeps_literal (hthis other ?_ henabled)
    rw [hsplit]
    exact List.mem_append_right before (List.mem_cons_of_mem rule hother)

/-- What is left of the constructors is taken for the namespace that they belong to. -/
private theorem not_occurs_constructor (hactive : mode.qualifiedNames) (s : Text) :
    ¬ (Substitution.literal "java$lang$String(" "(").Occurs (sweep (builtIn mode).activeRules s) := by
  have hmem : PatchRule.literal "java-lang-namespace" .qualifiedNames "java$lang$" "java.lang." ∈
      PatchRule.builtIn.drop 1 := .tail _ (.tail _ (.tail _ (.head _)))
  intro h
  obtain ⟨p, q, hs⟩ := occursIn_iff.mp h
  refine not_occurs_exchange hmode hmem rfl hactive (by decide) s (occursIn_iff.mpr ?_)
  exact ⟨p, "String(".toList ++ q, hs⟩

private theorem not_occurs_modifier (hactive : mode.visibility) (s : Text) :
    ¬ (Substitution.pattern internalFunction "fun ").Occurs (sweep (builtIn mode).activeRules s) := by
  refine not_occurs_sweep (show PatchRule.builtIn = [] ++ _ :: PatchRule.builtIn.drop 1 from rfl) hactive
    internalFunction_clears ?_ s
  intro other hother henabled
  obtain ⟨hconformance, hcoercion⟩ := enables_exchange hmode henabled
  simp only [PatchRule.builtIn, List.drop_succ_cons, List.drop_zero, List.mem_cons, List.not_mem_nil,
    or_false] at hother
  rcases hother with rfl | rfl | rfl | rfl | rfl | rfl | rfl
  · exact absurd rfl hconformance
  rotate_right
  · exact absurd rfl hcoercion
  all_goals
    exact keeps_modifier rfl (by decide) (by decide) ⟨_, rfl, by decide⟩ ⟨_, rfl, by decide⟩ (by decide)

/-- Without the rules that delete, one pass leaves nothing to do. -/
theorem settled_sweep (s : Text) :
    Settled (builtIn mode).activeRules (sweep (builtIn mode).activeRules s) := by
  intro rule hrule
  have hmem : rule ∈ PatchRule.builtIn ∧ mode.enables rule.group := List.mem_filter.mp hrule
  obtain ⟨hmem, hactive⟩ := hmem
  obtain ⟨hconformance, hcoercion⟩ := enables_exchange hmode hactive
  rcases List.mem_cons.mp hmem with rfl | hmem
  · exact not_occurs_modifier hmode hactive s
  · have hcases := hmem
    simp only [List.mem_cons, List.not_mem_nil, or_false] at hcases
    rcases hcases with rfl | rfl | rfl | rfl | rfl | rfl | rfl
    · exact absurd rfl hconformance
    · exact not_occurs_exchange hmode hmem rfl hactive (by decide) s
    · exact not_occurs_constructor hmode hactive s
    · exact not_occurs_exchange hmode hmem rfl hactive (by decide) s
    · exact not_occurs_exchange hmode hmem rfl hactive (by decide) s
    · exact not_occurs_exchange hmode hmem rfl hactive (by decide) s
    · exact absurd rfl hcoercion

end Exchanges

end Patcher

end Crosscheck
