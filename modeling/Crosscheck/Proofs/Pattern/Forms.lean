import Crosscheck.Proofs.Pattern.Denotation
/-!
# What common forms of patterns match

The derived forms in the words of the text that they pass over: exact texts, alternatives, optional parts
and runs of characters of a set.
-/

namespace Crosscheck.Pattern

variable {c d : Cursor} {g h : Groups}

theorem chain_cons (p : Pattern) (ps : List Pattern) :
    (chain (p :: ps)).Matches c g d h ↔ (Pattern.seq p (chain ps)).Matches c g d h := by
  cases ps with
  | nil =>
      constructor
      · intro hp
        exact ⟨d, h, hp, rfl, rfl⟩
      · intro hmatch
        obtain ⟨d, h, hp, rfl, rfl⟩ := hmatch
        exact hp
  | cons q qs => exact Iff.rfl

theorem chain_append (ps qs : List Pattern) :
    (chain (ps ++ qs)).Matches c g d h ↔ (Pattern.seq (chain ps) (chain qs)).Matches c g d h := by
  induction ps generalizing c g with
  | nil =>
      constructor
      · intro hqs
        exact ⟨c, g, ⟨rfl, rfl⟩, hqs⟩
      · intro hmatch
        obtain ⟨_, _, ⟨rfl, rfl⟩, hqs⟩ := hmatch
        exact hqs
  | cons p ps ih =>
      rw [List.cons_append, chain_cons]
      constructor
      · intro hmatch
        obtain ⟨e, i, hp, hrest⟩ := hmatch
        obtain ⟨e', i', hps, hqs⟩ := ih.mp hrest
        exact ⟨e', i', (chain_cons p ps).mpr ⟨e, i, hp, hps⟩, hqs⟩
      · intro hmatch
        obtain ⟨e', i', hpps, hqs⟩ := hmatch
        obtain ⟨e, i, hp, hps⟩ := (chain_cons p ps).mp hpps
        exact ⟨e, i, hp, ih.mpr ⟨e', i', hps, hqs⟩⟩

theorem matches_literal {s : Text} : (literal s).Matches c g d h ↔ c.Leads s d ∧ h = g := by
  induction s generalizing c g with
  | nil =>
      rw [Cursor.leads_nil]
      exact Iff.rfl
  | cons ch s ih =>
      rw [show ch :: s = [ch] ++ s from rfl, Cursor.leads_append, literal, List.map_append,
        List.map_singleton, List.singleton_append, chain_cons]
      constructor
      · intro hmatch
        obtain ⟨e, _, ⟨hc, rfl⟩, hs⟩ := hmatch
        obtain ⟨hl, rfl⟩ := ih.mp hs
        exact ⟨⟨e, hc, hl⟩, rfl⟩
      · intro hmatch
        obtain ⟨⟨e, hc, hs⟩, rfl⟩ := hmatch
        exact ⟨e, h, ⟨hc, rfl⟩, ih.mpr ⟨hs, rfl⟩⟩

theorem matches_choice {ps : List Pattern} (hps : ps ≠ []) :
    (choice ps).Matches c g d h ↔ ∃ p ∈ ps, p.Matches c g d h := by
  induction ps with
  | nil => exact absurd rfl hps
  | cons p ps ih =>
      cases ps with
      | nil => simp [choice]
      | cons q qs =>
          rw [List.exists_mem_cons_iff, ← ih (List.cons_ne_nil q qs)]
          exact Iff.rfl

theorem not_matches_never : ¬ never.Matches c g d h := by
  intro hmatch
  obtain ⟨e, i, ⟨hw, rfl, rfl⟩, hn, -⟩ := hmatch
  simp [Anchor.holds] at hw hn
  exact hw hn

/-- The pattern records no group. -/
def Silent (p : Pattern) : Prop := ∀ {c d g h}, p.Matches c g d h → h = g

theorem Silent.times {p : Pattern} (hp : p.Silent) {n : Nat} (h' : Leg.times p.Matches n c g d h) :
    h = g := by
  induction n generalizing c g with
  | zero => exact h'.2
  | succ n ih =>
      obtain ⟨_, _, hl, ht⟩ := h'
      exact (ih ht).trans (hp hl)

theorem silent_never : never.Silent := fun hm => absurd hm not_matches_never

theorem silent_choice {ps : List Pattern} (hps : ∀ p ∈ ps, p.Silent) : (choice ps).Silent := by
  intro c d g h hm
  by_cases hempty : ps = []
  · rw [hempty] at hm
    exact hm.2
  · obtain ⟨p, hp, hm⟩ := (matches_choice hempty).mp hm
    exact hps p hp hm

theorem matches_opt {p : Pattern} :
    (opt p).Matches c g d h ↔ (d = c ∧ h = g) ∨ p.Matches c g d h := by
  constructor
  · intro hmatch
    obtain ⟨n, -, hn, ht⟩ := hmatch
    have hle : n ≤ 1 := by simpa using hn 1 rfl
    obtain rfl | rfl : n = 0 ∨ n = 1 := by omega
    · exact .inl ht
    · exact .inr (Leg.times_one.mp ht)
  · intro hmatch
    rcases hmatch with ht | hp
    · exact ⟨0, Nat.zero_le _, by simp, ht⟩
    · exact ⟨1, Nat.zero_le _, by simp, Leg.times_one.mpr hp⟩

theorem times_set {s : CharSet} {n : Nat} : (Leg.times (set s).Matches n c g d h) ↔
    (∃ u, u.length = n ∧ (∀ ch ∈ u, s.has ch) ∧ c.Leads u d) ∧ h = g := by
  induction n generalizing c g with
  | zero =>
      constructor
      · intro hmatch
        obtain ⟨rfl, rfl⟩ := hmatch
        exact ⟨⟨[], rfl, by simp, .refl d⟩, rfl⟩
      · intro hmatch
        obtain ⟨⟨u, hu, -, hl⟩, rfl⟩ := hmatch
        obtain rfl := List.length_eq_zero_iff.mp hu
        exact ⟨Cursor.leads_nil.mp hl, rfl⟩
  | succ n ih =>
      constructor
      · intro hmatch
        obtain ⟨e, _, ⟨⟨ch, hch, hl⟩, rfl⟩, ht⟩ := hmatch
        obtain ⟨⟨u, hu, hall, hl'⟩, rfl⟩ := ih.mp ht
        exact ⟨⟨ch :: u, by simp [hu], by simpa [hch] using hall, hl.append hl'⟩, rfl⟩
      · intro hmatch
        obtain ⟨⟨u, hu, hall, hl⟩, rfl⟩ := hmatch
        cases u with
        | nil => cases hu
        | cons ch u =>
            rw [List.forall_mem_cons] at hall
            obtain ⟨e, hc, hl⟩ := Cursor.leads_append.mp (show c.Leads ([ch] ++ u) d from hl)
            exact ⟨e, h, ⟨⟨ch, hall.1, hc⟩, rfl⟩,
              ih.mpr ⟨⟨u, Nat.succ.inj hu, hall.2, hl⟩, rfl⟩⟩

theorem matches_star_set {s : CharSet} : (star (.set s)).Matches c g d h ↔
    (∃ u, (∀ ch ∈ u, s.has ch) ∧ c.Leads u d) ∧ h = g := by
  constructor
  · intro hmatch
    obtain ⟨n, -, -, ht⟩ := hmatch
    obtain ⟨⟨u, -, hu⟩, hg⟩ := times_set.mp ht
    exact ⟨⟨u, hu⟩, hg⟩
  · intro hmatch
    obtain ⟨⟨u, hu⟩, hg⟩ := hmatch
    exact ⟨u.length, Nat.zero_le _, by simp, times_set.mpr ⟨⟨u, rfl, hu⟩, hg⟩⟩

theorem matches_plus_set {s : CharSet} : (plus (.set s)).Matches c g d h ↔
    (∃ u, u ≠ [] ∧ (∀ ch ∈ u, s.has ch) ∧ c.Leads u d) ∧ h = g := by
  constructor
  · intro hmatch
    obtain ⟨n, hn, -, ht⟩ := hmatch
    obtain ⟨⟨u, hu, h'⟩, hg⟩ := times_set.mp ht
    exact ⟨⟨u, List.ne_nil_of_length_pos (by omega), h'⟩, hg⟩
  · intro hmatch
    obtain ⟨⟨u, hne, hu⟩, hg⟩ := hmatch
    exact ⟨u.length, List.length_pos_iff.mpr hne, by simp, times_set.mpr ⟨⟨u, rfl, hu⟩, hg⟩⟩

theorem has_spaceOrTab {ch : Char} :
    (CharSet.union (.one ' ') (.one '\t')).has ch ↔ ch = ' ' ∨ ch = '\t' := by
  have key (a : Char) : (CharSet.one a).has ch ↔ ch = a := by
    simp only [CharSet.one, CharSet.has, Bool.and_eq_true, decide_eq_true_eq]
    rw [← Nat.le_antisymm_iff, eq_comm, ← Char.toNat_inj]
  simp only [CharSet.has, Bool.or_eq_true, key]

theorem has_complement_one {a ch : Char} : (CharSet.complement (.one a)).has ch ↔ ch ≠ a := by
  simp only [CharSet.one, CharSet.has, Bool.not_eq_true', Bool.and_eq_false_iff,
    decide_eq_false_iff_not, ne_eq, ← Char.toNat_inj]
  omega

end Crosscheck.Pattern
