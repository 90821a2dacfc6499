import Crosscheck.Proofs.Patch.Modifier
import Mathlib.Logic.Relation
/-!
# Taking modifiers off one at a time

Modifiers on functions stand apart from each other, and taking one off leaves the others on. So they can be
taken off one at a time, in any order, and once none is left the text is the one that the rule gives.
-/

namespace Crosscheck.PatchRule

open Relation Text

variable {previous : Option Char} {s t t' p q v v' : Text}

/-- A modifier is taken off a function in a text that stands behind `previous`. -/
inductive Removes (previous : Option Char) : Text → Text → Prop
  | intro {p v : Text} (q : Text) (hedge : EndsNoWord (p.getLast?.or previous)) (hv : IsModifier v) :
      Removes previous (p ++ (v ++ ("fun ".toList ++ q))) (p ++ ("fun ".toList ++ q))

theorem Removes.stands (h : Removes previous s t) : Stands EndsNoWord IsModified previous s := by
  obtain ⟨q, hedge, hv⟩ := h
  exact ⟨_, _, q, by rw [List.append_assoc], ⟨_, hv, rfl⟩, hedge⟩

/-- A modifier comes off in any surroundings. -/
theorem Removes.behind (u : Text) (h : Removes (u.getLast?.or previous) s t) :
    Removes previous (u ++ s) (u ++ t) := by
  obtain @⟨p, v, q, hedge, hv⟩ := h
  have hbehind : EndsNoWord ((u ++ p).getLast?.or previous) := by
    rwa [List.getLast?_append, Option.or_assoc]
  have hmade := Removes.intro q hbehind hv
  rwa [List.append_assoc, List.append_assoc] at hmade

theorem removes_behind (u : Text) (h : ReflTransGen (Removes (u.getLast?.or previous)) s t) :
    ReflTransGen (Removes previous) (u ++ s) (u ++ t) :=
  h.lift (u ++ ·) fun _ _ hstep => hstep.behind u

/-! ## The order does not matter -/

/-- A modifier ends where the function begins. -/
theorem IsModifier.eq_of_function (hv : IsModifier v) (hv' : IsModifier v')
    (h : v ++ ("fun ".toList ++ q) = v' ++ ("fun ".toList ++ t)) : v = v' ∧ q = t := by
  have hbefore {w w' x y : Text} (hw : IsModifier w) (h : w ++ x = w' ++ ("fun ".toList ++ y)) :
      ∃ k, w' = w ++ k := by
    have havoids : w.Avoids "fun ".toList := .of_head rfl fun hmem => absurd (hw.mem hmem) (by decide)
    exact havoids.before h
  obtain ⟨k, rfl⟩ := hbefore hv h
  obtain ⟨k', hk⟩ := hbefore hv' h.symm
  obtain rfl : k = [] := by
    have hlength := congrArg List.length hk
    simp only [List.length_append] at hlength
    exact List.length_eq_zero_iff.mp (by omega)
  rw [List.append_nil] at h ⊢
  exact ⟨rfl, List.append_cancel_left (List.append_cancel_left h)⟩

/-- A modifier that begins inside of a modified function begins with it. -/
theorem IsModifier.beside {n r : Text} (hv : IsModifier v) (hv' : IsModifier v')
    (h : v ++ ("fun ".toList ++ q) = n ++ (v' ++ r)) :
    n = [] ∨ ∃ k, n = v ++ ("fun ".toList ++ k) ∧ q = k ++ (v' ++ r) := by
  cases n with
  | nil => exact .inl rfl
  | cons ch n =>
      obtain ⟨b, hb, hall, rfl⟩ := hv
      have hrest : ("nternal".toList ++ (b ++ "fun ".toList)) ++ q = n ++ (v' ++ r) := by
        rw [List.append_assoc, List.append_assoc]
        exact (List.cons.inj h).2
      have havoids : Avoids ("nternal".toList ++ (b ++ "fun ".toList)) v' := by
        refine .of_head hv'.head? ?_
        simp only [List.mem_append, not_or]
        refine ⟨by decide, fun hmem => ?_, by decide⟩
        exact absurd (hall _ hmem) (by decide)
      obtain ⟨k, rfl⟩ := havoids.before hrest
      obtain rfl : 'i' = ch := (List.cons.inj h).1
      rw [List.append_assoc _ k] at hrest
      exact .inr ⟨k, by simp, List.append_cancel_left hrest⟩

private theorem getLast?_function (p k : Text) :
    (p ++ ("fun ".toList ++ k)).getLast? = k.getLast?.or (some ' ') := by
  rw [List.getLast?_append, List.getLast?_append, Option.or_assoc]
  rfl

/-- Two removals are the same, or each can be made after the other. -/
theorem removes_diamond (h : Removes previous s t) (h' : Removes previous s t') :
    t = t' ∨ ∃ x, Removes previous t x ∧ Removes previous t' x := by
  -- the second modifier stands behind the first
  have hordered {p n v v' q q' : Text} (hedge : EndsNoWord (p.getLast?.or previous))
      (hv : IsModifier v) (hedge' : EndsNoWord ((p ++ n).getLast?.or previous)) (hv' : IsModifier v')
      (hplace : v ++ ("fun ".toList ++ q) = n ++ (v' ++ ("fun ".toList ++ q'))) :
      p ++ ("fun ".toList ++ q) = p ++ n ++ ("fun ".toList ++ q') ∨
        ∃ x, Removes previous (p ++ ("fun ".toList ++ q)) x ∧
          Removes previous (p ++ n ++ ("fun ".toList ++ q')) x := by
    rcases hv.beside hv' hplace with rfl | ⟨k, rfl, rfl⟩
    · obtain ⟨-, rfl⟩ := hv.eq_of_function hv' hplace
      exact .inl (by rw [List.append_nil])
    · refine .inr ⟨p ++ ("fun ".toList ++ (k ++ ("fun ".toList ++ q'))), ?_, ?_⟩
      · have hafter : EndsNoWord ((p ++ ("fun ".toList ++ k)).getLast?.or previous) := by
          rw [getLast?_function]
          rwa [← List.append_assoc, ← List.append_assoc, List.append_assoc, getLast?_function] at hedge'
        have hmade := Removes.intro q' hafter hv'
        simpa only [List.append_assoc] using hmade
      · have hmade := Removes.intro (k ++ ("fun ".toList ++ q')) hedge hv
        simpa only [List.append_assoc] using hmade
  obtain ⟨q, hedge, hv⟩ := h
  generalize hs : _ ++ (_ ++ ("fun ".toList ++ q)) = s at h'
  obtain ⟨q', hedge', hv'⟩ := h'
  rcases List.append_eq_append_iff.mp hs with ⟨n, rfl, hplace⟩ | ⟨n, rfl, hplace⟩
  · exact hordered hedge hv hedge' hv' hplace
  · rcases hordered hedge' hv' hedge hv hplace with heq | ⟨x, hx', hx⟩
    · exact .inl heq.symm
    · exact .inr ⟨x, hx, hx'⟩

theorem removes_confluent (h : ReflTransGen (Removes previous) s t)
    (h' : ReflTransGen (Removes previous) s t') : Join (ReflTransGen (Removes previous)) t t' := by
  refine church_rosser (fun a b c hb hc => ?_) h h'
  rcases removes_diamond hb hc with rfl | ⟨x, hx, hx'⟩
  · exact ⟨b, .refl, .refl⟩
  · exact ⟨x, .single hx, .single hx'⟩

/-! ## The rule takes all modifiers off -/

/-- Modifiers in a row come off from the last one to the first. -/
theorem removes_modifiers {c d : Cursor} {g h : Groups} {u : Text} {n : Nat}
    (hrounds : Leg.times (Pattern.chain [Pattern.wordEdge, Pattern.literal "internal",
      Pattern.plus Pattern.spaceOrTab]).Matches n c g d h) (hu : c.Leads u d) (q : Text) :
    ReflTransGen (Removes c.previous) (u ++ ("fun ".toList ++ q)) ("fun ".toList ++ q) := by
  induction n generalizing c g u with
  | zero =>
      obtain ⟨rfl, -⟩ := hrounds
      obtain rfl := hu.text_unique (.refl d)
      exact .refl
  | succ n ih =>
      obtain ⟨e, i, hfirst, hmore⟩ := hrounds
      obtain ⟨⟨hedge, w, hw, hlead⟩, -⟩ := matches_modifier.mp hfirst
      obtain ⟨k, hk⟩ := ((Pattern.matches_regular _).times n).leads hmore
      obtain rfl := hu.text_unique (hlead.append hk)
      have hlater := ih hmore hk
      rw [hlead.previous] at hlater
      rw [List.append_assoc]
      exact (removes_behind w hlater).tail (.intro (p := []) q hedge hw)

theorem removes_rewriteAt {f : Match → Text} (hf : ∀ m, f m = "fun ".toList) (c : Cursor) :
    ReflTransGen (Removes c.previous) c.rest (internalFunction.rewriteAt f c) := by
  induction c using consuming_internalFunction.walk_induction with
  | absent c hfind => rw [Regex.rewriteAt_of_find?_none hfind]
  | @found c u e m d hfirst ih =>
      obtain ⟨g, ⟨x, i, ⟨k, -, -, hrounds⟩, hfun⟩, -⟩ := Regex.matches_of_matchAt? hfirst.matched
      obtain ⟨w, hw⟩ := ((Pattern.matches_regular _).times k).leads hrounds
      obtain ⟨hfun, -⟩ := Pattern.matches_literal.mp hfun
      have hhere := removes_modifiers hrounds hw d.rest
      rw [hfun.previous, hw.previous] at ih
      rw [hfirst.rewriteAt consuming_internalFunction, hf, hfirst.before.rest, hw.rest, hfun.rest]
      rw [hfirst.before.previous] at hhere ih
      refine removes_behind u (hhere.trans (removes_behind "fun ".toList ?_))
      simpa using ih

theorem removes_replaceAll (s : Text) :
    ReflTransGen (Removes none) s (internalFunction.replaceAll "fun " s) := by
  rw [Regex.replaceAll_eq_rewriteAt consuming_internalFunction]
  exact removes_rewriteAt (fun _ => rfl) (Cursor.start s)

theorem not_stands_replaceAll (s : Text) :
    ¬ Stands EndsNoWord IsModified none (internalFunction.replaceAll "fun " s) := by
  rw [Regex.replaceAll_eq_rewriteAt consuming_internalFunction]
  exact not_stands_rewriteAt (fun _ => rfl) (Cursor.start s)

theorem eq_of_removes (hnone : ¬ Stands EndsNoWord IsModified previous s)
    (h : ReflTransGen (Removes previous) s t) : t = s := by
  rcases h.cases_head with rfl | ⟨x, hx, -⟩
  · rfl
  · exact absurd hx.stands hnone

/-- The rule gives the same text whichever modifiers were taken off before. -/
theorem replaceAll_of_removes (h : ReflTransGen (Removes none) s t) :
    internalFunction.replaceAll "fun " t = internalFunction.replaceAll "fun " s := by
  obtain ⟨x, ht, hs⟩ := removes_confluent (h.trans (removes_replaceAll t)) (removes_replaceAll s)
  rw [← eq_of_removes (not_stands_replaceAll t) ht, ← eq_of_removes (not_stands_replaceAll s) hs]

end Crosscheck.PatchRule
