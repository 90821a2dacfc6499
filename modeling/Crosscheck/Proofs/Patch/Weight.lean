import Crosscheck.Proofs.Patch.Modifier
/-!
# What a rule takes off a text

Every built-in rule leaves texts without an occurrence as they are. Where there is one, the length of the
text together with the numbers of its dollar signs and line breaks drops by 2 or more.
-/

namespace Crosscheck

namespace Text

/-- The length, in which dollar signs and line breaks count twice. -/
def weight (s : Text) : Nat := s.length + s.count '$' + s.count '\n'

theorem weight_append (s t : Text) : weight (s ++ t) = weight s + weight t := by
  simp only [weight, List.length_append, List.count_append]
  omega

theorem length_le_weight (s : Text) : s.length ≤ weight s := by
  rw [weight, Nat.add_assoc]
  exact Nat.le_add_right _ _

variable {part by_ : Text}

theorem weight_replaceFrom_le (hpart : part ≠ []) (h : weight by_ ≤ weight part) (s : Text) :
    weight (replaceFrom part by_ 0 s) ≤ weight s := by
  induction hn : s.length using Nat.strongRecOn generalizing s with
  | ind n ih =>
      rcases replaceFrom_cases by_ hpart s with ⟨-, hkeep⟩ | ⟨-, u, t, hs, -, hreplace⟩
      · exact Nat.le_of_eq (congrArg weight hkeep)
      · have hlength := List.length_pos_iff.mpr hpart
        have hshorter : t.length < n := by
          rw [← hn, hs, List.length_append, List.length_append]
          omega
        have hrest := ih t.length hshorter t rfl
        rw [hreplace, hs]
        simp only [weight_append]
        omega

end Text

open Text

/-- There is something to do for the substitution. -/
def Substitution.Occurs : Substitution → Text → Prop
  | .literal part _, s => Text.occursIn part s
  | .pattern regex _, s => regex.allMatches s ≠ []

/-- The substitution keeps texts in which it has nothing to do, and lightens all others. -/
structure Substitution.Lightens (a : Substitution) : Prop where
  keeps : ∀ {s}, ¬ a.Occurs s → a.apply s = s
  lightens : ∀ {s}, a.Occurs s → weight (a.apply s) + 2 ≤ weight s

theorem Substitution.lightens_literal {part by_ : Text} (hpart : part ≠ [])
    (h : weight by_ + 2 ≤ weight part) : (Substitution.literal part by_).Lightens := by
  refine ⟨?_, ?_⟩
  · intro s hs
    rcases replaceFrom_cases by_ hpart s with ⟨-, hkeep⟩ | ⟨hoccurs, -⟩
    · exact (replaceAll_eq hpart s).trans hkeep
    · exact absurd hoccurs hs
  · intro s hs
    rcases replaceFrom_cases by_ hpart s with ⟨hnone, -⟩ | ⟨-, u, t, ht, -, hreplace⟩
    · rw [Occurs, hnone] at hs
      cases hs
    · have hrest := weight_replaceFrom_le hpart (show weight by_ ≤ weight part by omega) t
      rw [Substitution.apply, replaceAll_eq hpart, hreplace, ht]
      simp only [weight_append]
      omega

/-! ## Patterns -/

namespace Regex

variable {r : Regex} {f : Match → Text}

/-- What replaces a match is lighter than the match. -/
def Lightening (r : Regex) (f : Match → Text) : Prop :=
  ∀ {c m d u}, r.matchAt? c = some (m, d) → c.Leads u d → weight (f m) + 2 ≤ weight u

theorem Lightening.consuming (hf : r.Lightening f) : r.Consuming := by
  intro c m d h
  obtain ⟨u, hu, -⟩ := matchAt?_leads h
  have hweight := hf h hu
  have hoffset := hu.offset
  cases u with
  | nil =>
      change _ + 2 ≤ 0 at hweight
      omega
  | cons ch u =>
      rw [List.length_cons] at hoffset
      omega

theorem weight_rewriteAt_le (hf : r.Lightening f) (c : Cursor) :
    weight (r.rewriteAt f c) ≤ weight c.rest ∧
      (r.find? c ≠ none → weight (r.rewriteAt f c) + 2 ≤ weight c.rest) := by
  induction c using Consuming.walk_induction hf.consuming with
  | absent c hfind =>
      rw [rewriteAt_of_find?_none hfind]
      exact ⟨Nat.le_refl _, fun h => absurd hfind h⟩
  | @found c u e m d hfirst ih =>
      obtain ⟨v, hv, -⟩ := matchAt?_leads hfirst.matched
      have hmatch := hf hfirst.matched hv
      have hd := ih.1
      rw [hfirst.rewriteAt hf.consuming, hfirst.before.rest, hv.rest]
      simp only [weight_append]
      omega

end Regex

theorem Substitution.lightens_pattern {r : Regex} {template : Text}
    (hf : r.Lightening fun m => Template.expand r m template) :
    (Substitution.pattern r template).Lightens := by
  have hr : r.Consuming := hf.consuming
  refine ⟨?_, ?_⟩
  · intro s hs
    have hfind := hr.allMatches_eq_nil.mp (not_not.mp hs)
    exact (Regex.replaceAll_eq_rewriteAt hr template s).trans (Regex.rewriteAt_of_find?_none hfind)
  · intro s hs
    have hfind : r.find? (Cursor.start s) ≠ none := mt hr.allMatches_eq_nil.mpr hs
    rw [Substitution.apply, Regex.replaceAll_eq_rewriteAt hr template s]
    exact (Regex.weight_rewriteAt_le hf (Cursor.start s)).2 hfind

namespace PatchRule

private theorem lightening_internalFunction :
    internalFunction.Lightening fun m => Template.expand internalFunction m "fun " := by
  intro c m d u h hu
  obtain ⟨v, hv, hlength⟩ := internalFunction_text h
  obtain rfl := hu.text_unique hv
  have hexpand : Template.expand internalFunction m "fun " = "fun ".toList := rfl
  have hweight := length_le_weight v
  change weight (Template.expand internalFunction m "fun ") + 2 ≤ weight (v ++ "fun ".toList)
  rw [hexpand, weight_append]
  omega

theorem lightens_internalFunction : (Substitution.pattern internalFunction "fun ").Lightens :=
  Substitution.lightens_pattern lightening_internalFunction

/-- Every built-in rule lightens the texts that it changes. -/
theorem lightens_builtIn {rule : PatchRule} (h : rule ∈ builtIn) : rule.action.Lightens := by
  simp only [builtIn, List.mem_cons, List.not_mem_nil, or_false] at h
  rcases h with rfl | rfl | rfl | rfl | rfl | rfl | rfl | rfl
  · exact lightens_internalFunction
  all_goals exact Substitution.lightens_literal (by decide) (by decide)

end PatchRule

end Crosscheck
