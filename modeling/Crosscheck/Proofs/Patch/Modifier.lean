import Crosscheck.Patch.Rule
import Crosscheck.Proofs.Pattern.Forms
import Crosscheck.Proofs.Pattern.Rewriting
import Crosscheck.Proofs.Text.Occurrence
/-!
# The modifier on functions

The pattern for `internal` before `fun` finds something just where a text has the modifier behind no word
and a function after it. Taking the modifier off leaves no such place.
-/

namespace Crosscheck.PatchRule

open Pattern Text

/-- The modifier with blanks after it. -/
def IsModifier (w : Text) : Prop :=
  ∃ b, b ≠ [] ∧ (∀ ch ∈ b, ch = ' ' ∨ ch = '\t') ∧ w = "internal".toList ++ b

/-- The modifier on a function. -/
def IsModified (w : Text) : Prop := ∃ v, IsModifier v ∧ w = v ++ "fun ".toList

/-- No word goes on after this character. -/
def EndsNoWord (previous : Option Char) : Prop := previous.any isWord = false

instance : DecidablePred EndsNoWord := fun previous =>
  inferInstanceAs (Decidable (previous.any isWord = false))

variable {c d : Cursor} {g h : Groups} {w v q r : Text}

/-- Before a letter, the edge of a word is where no word goes on. -/
theorem holds_wordEdge (ch : Char) (hch : isWord ch) (hhead : c.rest.head? = some ch) :
    Anchor.wordEdge.holds .word c.previous c.rest.head? ↔ EndsNoWord c.previous := by
  have hletter : c.rest.head?.any CharSet.word.has = true := by
    rw [hhead]
    exact hch
  have hword : CharSet.word.has = isWord := rfl
  rw [Anchor.holds, hletter, hword, bne_iff_ne, ne_eq, Bool.not_eq_true, EndsNoWord]

theorem matches_modifier :
    (chain [wordEdge, Pattern.literal "internal", plus spaceOrTab]).Matches c g d h ↔
      (EndsNoWord c.previous ∧ ∃ w, IsModifier w ∧ c.Leads w d) ∧ h = g := by
  constructor
  · intro hmatch
    obtain ⟨_, _, ⟨hedge, rfl, rfl⟩, e, _, hletters, hblanks⟩ := hmatch
    obtain ⟨hword, rfl⟩ := matches_literal.mp hletters
    obtain ⟨⟨b, hb, hall, hlead⟩, rfl⟩ := matches_plus_set.mp hblanks
    have hedge' := (holds_wordEdge 'i' (by decide) (by rw [hword.rest]; rfl)).mp hedge
    refine ⟨⟨hedge', _, ⟨b, hb, ?_, rfl⟩, hword.append hlead⟩, rfl⟩
    exact fun ch hch => has_spaceOrTab.mp (hall ch hch)
  · intro ⟨⟨hedge, w, ⟨b, hb, hall, hw⟩, hlead⟩, hg⟩
    obtain ⟨e, hword, hlead⟩ := Cursor.leads_append.mp (hw ▸ hlead)
    have hedge' := (holds_wordEdge 'i' (by decide) (by rw [hword.rest]; rfl)).mpr hedge
    refine ⟨c, g, ⟨hedge', rfl, rfl⟩, e, g, matches_literal.mpr ⟨hword, rfl⟩, ?_⟩
    exact matches_plus_set.mpr ⟨⟨b, hb, fun ch hch => has_spaceOrTab.mpr (hall ch hch), hlead⟩, hg⟩

/-- A match has the modifier before the end that is left of it. -/
theorem internalFunction_text {m : Match} (h : internalFunction.matchAt? c = some (m, d)) :
    ∃ u, c.Leads (u ++ "fun ".toList) d ∧ 8 ≤ u.length := by
  obtain ⟨g, ⟨e, _, ⟨n, hn, -, hrounds⟩, hfun⟩, -⟩ := Regex.matches_of_matchAt? h
  obtain ⟨n, rfl⟩ : ∃ k, n = k + 1 := ⟨n - 1, by omega⟩
  obtain ⟨x, i, hfirst, hmore⟩ := hrounds
  obtain ⟨⟨-, w, ⟨b, -, -, rfl⟩, hlead⟩, -⟩ := matches_modifier.mp hfirst
  obtain ⟨v, hv⟩ := ((matches_regular _).times n).leads hmore
  obtain ⟨hfun, -⟩ := matches_literal.mp hfun
  refine ⟨"internal".toList ++ (b ++ v), ?_, ?_⟩
  · have hwhole := (hlead.append hv).append hfun
    simpa only [List.append_assoc] using hwhole
  · rw [List.length_append]
    exact Nat.le_add_right 8 _

theorem consuming_internalFunction : internalFunction.Consuming := by
  intro c m d h
  obtain ⟨u, hu, hlength⟩ := internalFunction_text h
  have hoffset := hu.offset
  rw [List.length_append] at hoffset
  omega

/-- A modifier can be taken off where a function comes after it, or another modifier that can be. -/
theorem matchAt?_ne_none (hc : EndsNoWord c.previous) (hw : IsModifier w) (hlead : c.Leads w d)
    (hafter : "fun ".toList <+: d.rest ∨ internalFunction.matchAt? d ≠ none) :
    internalFunction.matchAt? c ≠ none := by
  have hround := (matches_modifier (g := []) (h := [])).mpr ⟨⟨hc, w, hw, hlead⟩, rfl⟩
  rw [Option.ne_none_iff_isSome]
  rcases hafter with ⟨rest, hrest⟩ | hmatch
  · obtain ⟨e, hfun, -⟩ := Cursor.exists_leads hrest.symm
    refine Regex.matchAt?_isSome (d := e) (g := []) ⟨d, [], ⟨1, Nat.le_refl 1, by simp, ?_⟩, ?_⟩
    · exact Leg.times_one.mpr hround
    · exact matches_literal.mpr ⟨hfun, rfl⟩
  · obtain ⟨⟨m, x⟩, hm⟩ := Option.ne_none_iff_exists'.mp hmatch
    obtain ⟨g, ⟨y, i, ⟨n, hn, -, hrounds⟩, hfun⟩, -⟩ := Regex.matches_of_matchAt? hm
    refine Regex.matchAt?_isSome (d := x) (g := g) ⟨y, i, ⟨n + 1, by omega, by simp, ?_⟩, hfun⟩
    exact ⟨d, [], hround, hrounds⟩

/-- Whatever is found ends with a modifier on a function. -/
theorem stands_of_matchAt? {m : Match} (hm : internalFunction.matchAt? c = some (m, d)) :
    Stands EndsNoWord IsModified c.previous c.rest := by
  obtain ⟨g, ⟨x, _, ⟨n, hn, -, hrounds⟩, hfun⟩, -⟩ := Regex.matches_of_matchAt? hm
  obtain ⟨n, rfl⟩ : ∃ k, n = k + 1 := ⟨n - 1, by omega⟩
  obtain ⟨y, i, hearlier, hlast⟩ := Leg.times_add.mp hrounds
  obtain ⟨p, hp⟩ := ((matches_regular _).times n).leads hearlier
  obtain ⟨⟨hedge, w, hw, hlead⟩, -⟩ := matches_modifier.mp (Leg.times_one.mp hlast)
  obtain ⟨hfun, -⟩ := matches_literal.mp hfun
  refine ⟨p, w ++ "fun ".toList, d.rest, ?_, ⟨w, hw, rfl⟩, hp.previous ▸ hedge⟩
  rw [hp.rest, hlead.rest, hfun.rest, List.append_assoc]

theorem find?_ne_none_iff :
    internalFunction.find? c ≠ none ↔ Stands EndsNoWord IsModified c.previous c.rest := by
  constructor
  · intro hfind
    obtain ⟨⟨m, d⟩, hfound⟩ := Option.ne_none_iff_exists'.mp hfind
    obtain ⟨u, e, hu, he, -⟩ := Regex.find?_some hfound
    obtain ⟨p, w, q, hrest, hw, hedge⟩ := stands_of_matchAt? he
    refine ⟨u ++ p, w, q, ?_, hw, ?_⟩
    · rw [hu.rest, hrest, List.append_assoc]
    · rwa [List.getLast?_append, Option.or_assoc, ← hu.previous]
  · intro ⟨p, w, q, hrest, ⟨v, hv, hw⟩, hedge⟩
    obtain ⟨d, hd, hafter⟩ := Cursor.exists_leads hrest
    rw [hw, List.append_assoc] at hafter
    obtain ⟨e, he, hfun⟩ := Cursor.exists_leads hafter
    refine Regex.find?_ne_none hd (matchAt?_ne_none ?_ hv he (.inl ⟨q, hfun.symm⟩))
    rwa [hd.previous]

/-! ## Taking the modifier off -/

/-- The characters of a modifier on a function. -/
def modifierLetters : Text := ("internal".toList ++ [' ', '\t']) ++ "fun ".toList

theorem IsModifier.mem {ch : Char} (hw : IsModifier w) (h : ch ∈ w) :
    ch ∈ "internal".toList ++ [' ', '\t'] := by
  obtain ⟨b, -, hall, rfl⟩ := hw
  rw [List.mem_append] at h ⊢
  rcases h with h | h
  · exact .inl h
  · exact .inr (by simpa using hall ch h)

theorem IsModifier.head? (hw : IsModifier w) : w.head? = some 'i' := by
  obtain ⟨b, -, -, rfl⟩ := hw
  rfl

theorem IsModified.mem {ch : Char} (hw : IsModified w) (h : ch ∈ w) : ch ∈ modifierLetters := by
  obtain ⟨v, hv, rfl⟩ := hw
  unfold modifierLetters
  rw [List.mem_append] at h ⊢
  exact h.imp hv.mem id

theorem IsModified.begins (hw : IsModified w) : "internal".toList <+: w := by
  obtain ⟨v, ⟨b, -, -, rfl⟩, rfl⟩ := hw
  rw [List.append_assoc]
  exact List.prefix_append _ _

theorem IsModified.getLast? (hw : IsModified w) : w.getLast? = some ' ' := by
  obtain ⟨v, -, rfl⟩ := hw
  rw [List.getLast?_append]
  rfl

private theorem before_function (h : "fun ".toList ++ q = v ++ ("fun ".toList ++ r)) :
    v = [] ∨ "fun ".toList <+: v := by
  cases v with
  | nil => exact .inl rfl
  | cons ch v =>
      obtain ⟨rfl, hrest⟩ := List.cons.inj h
      have havoids : Avoids "un ".toList "fun ".toList := by decide
      obtain ⟨k, rfl⟩ := havoids.before hrest
      exact .inr ⟨k, rfl⟩

/-- A modifier before a match makes a match that starts earlier if a function comes after it at once, or
if the match does. -/
private theorem exists_earlier {p k : Text} {e : Cursor} (hu : c.Leads (p ++ (w ++ k)) e)
    (he : internalFunction.matchAt? e ≠ none) (hw : IsModifier w)
    (hedge : EndsNoWord (p.getLast?.or c.previous)) (hk : k = [] ∨ "fun ".toList <+: k) :
    ∃ y, c.Leads p y ∧ internalFunction.matchAt? y ≠ none := by
  obtain ⟨y, hy, hwk⟩ := Cursor.leads_append.mp hu
  obtain ⟨z, hz, hafter⟩ := Cursor.leads_append.mp hwk
  refine ⟨y, hy, matchAt?_ne_none (hy.previous ▸ hedge) hw hz ?_⟩
  rcases hk with rfl | hfun
  · obtain rfl := Cursor.leads_nil.mp hafter
    exact .inr he
  · rw [hafter.rest]
    exact .inl (hfun.trans (List.prefix_append k e.rest))

/-- What replaces a match brings no other one about, neither with what stands before nor with what
comes after it. -/
theorem not_stands_rewriteAt {f : Match → Text} (hf : ∀ m, f m = "fun ".toList) (c : Cursor) :
    ¬ Stands EndsNoWord IsModified c.previous (internalFunction.rewriteAt f c) := by
  intro hstands
  induction c using consuming_internalFunction.walk_induction with
  | absent c hfind =>
      rw [Regex.rewriteAt_of_find?_none hfind] at hstands
      exact find?_ne_none_iff.mpr hstands hfind
  | @found c u e m d hfirst ih =>
      obtain ⟨p, _, q, hplace, ⟨w, hw, rfl⟩, hedge⟩ := hstands
      rw [hfirst.rewriteAt consuming_internalFunction, hf, List.append_assoc] at hplace
      have hwf : w.Avoids "fun ".toList := .of_head rfl fun h => absurd (hw.mem h) (by decide)
      have hfw : Avoids "fun ".toList w := .of_head hw.head? (by decide)
      rcases hwf.beside hfw hplace.symm with ⟨k, rfl⟩ | ⟨k, hk, hrest⟩
      · -- The modifier stands before the match, so it was not the first one.
        rw [List.append_assoc, List.append_assoc] at hplace
        have hafter : k ++ ("fun ".toList ++ internalFunction.rewriteAt f d) = "fun ".toList ++ q :=
          List.append_cancel_left (List.append_cancel_left hplace)
        have hfound : internalFunction.matchAt? e ≠ none := by simp [hfirst.matched]
        obtain ⟨y, hy, hmatch⟩ := exists_earlier hfirst.before hfound hw hedge (before_function hafter.symm)
        have hletter := List.length_pos_of_mem (List.mem_of_head? hw.head?)
        refine hmatch (hfirst.none_before hy ?_)
        rw [List.length_append, List.length_append]
        omega
      · -- The modifier stands after the match, where the walk goes on.
        obtain ⟨v, hv, -⟩ := internalFunction_text hfirst.matched
        have hprevious : d.previous = some ' ' := by
          rw [hv.previous, List.getLast?_append]
          rfl
        rw [hk, List.getLast?_append, List.getLast?_append, Option.or_assoc, Option.or_assoc] at hedge
        refine ih ⟨k, w ++ "fun ".toList, q, ?_, ⟨w, hw, rfl⟩, ?_⟩
        · rw [hrest, List.append_assoc]
        · rw [hprevious]
          exact hedge

end Crosscheck.PatchRule
