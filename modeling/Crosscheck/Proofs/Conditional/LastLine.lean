import Crosscheck.Proofs.Conditional.Layout
import Crosscheck.Proofs.Conditional.NormalForm
import Crosscheck.Proofs.Conditional.Simultaneous
import Crosscheck.Proofs.Engine.LastExpression
import Crosscheck.Proofs.Snippet.Location
/-!
# The last line of a resolved text

The last line of a text stays the last line when all blocks are resolved and the import guard is exchanged,
unless a block or the guard takes in a part of it, or the line break before it. A block whose tag is a pattern
in its own right ends with `#endif` on a line of its own, so it takes in no other last line.
-/

namespace Crosscheck

/-- The text ends with this line. -/
def Text.EndsIn (line s : Text) : Prop := s = line ∨ ∃ before, s = before ++ '\n' :: line

/-- An end of the text that holds a newline ends with the same line, and so does whatever has this end. -/
theorem Text.EndsIn.of_suffix {line s t u : Text} (hs : EndsIn line s) (hline : '\n' ∉ line) (hu : u <:+ s)
    (hnewline : '\n' ∈ u) (ht : u <:+ t) : ∃ before, t = before ++ '\n' :: line := by
  rcases hs with rfl | ⟨before, rfl⟩
  · exact absurd (hu.subset hnewline) hline
  · obtain ⟨between, rfl⟩ := exists_of_suffix hu hline hnewline
    obtain ⟨front, rfl⟩ := ht
    exact ⟨front ++ between, by rw [List.append_assoc]⟩

namespace Block

open Pattern

variable {tag : Pattern} {c d : Cursor} {g : Groups} {line : Text}

/-- The line begins with the end of a block. -/
def Closes (line : Text) : Prop := ∃ indent : Blanks, indent.val ++ "#endif".toList <+: line

theorem endsLine_body (b : Option Body) : ∃ u, '\n' :: bodyText b = u ++ ['\n'] := by
  cases b with
  | none => exact ⟨[], rfl⟩
  | some b => exact ⟨'\n' :: b.val, rfl⟩

/-- Before the last marker of a block there is the end of a line. -/
theorem endsLine_bodies (b : Option Body) (o : Option (Middle × Option Body)) :
    ∃ u, '\n' :: (bodyText b ++ Layout.elseText o) = u ++ ['\n'] := by
  cases o with
  | none => simpa [Layout.elseText] using endsLine_body b
  | some o =>
      obtain ⟨m, b'⟩ := o
      obtain ⟨u, hu⟩ := endsLine_body b'
      exact ⟨'\n' :: (bodyText b ++ (m.line ++ u)), by simp [Layout.elseText, hu]⟩

/-- What a block matches ends with a line that closes it, whatever its condition. -/
theorem closes_of_matches (h : (pattern tag).Matches c [] d g) : ∃ before, ∃ indent : Blanks,
    c.Leads (before ++ '\n' :: (indent.val ++ "#endif".toList)) d := by
  obtain ⟨e₁, _, h₁, e₂, _, h₂, e₃, _, h₃, e₄, _, h₄, e₅, _, h₅, e₆, _, ⟨l₆, rfl⟩, e₇, _, h₇,
    e₈, _, h₈, e₉, _, h₉, h₁₀⟩ := h
  obtain ⟨u₁, l₁⟩ := (matches_regular _).leads h₁
  obtain ⟨u₂, l₂⟩ := (matches_regular _).leads h₂
  obtain ⟨u₃, l₃⟩ := (matches_regular _).leads h₃
  obtain ⟨u₄, l₄⟩ := (matches_regular _).leads h₄
  obtain ⟨u₅, l₅⟩ := (matches_regular _).leads h₅
  obtain ⟨primary, l₇, -⟩ := matches_body.mp h₇
  obtain ⟨otherwise, l₈, -⟩ := matches_else.mp h₈
  obtain ⟨⟨indent, l₉⟩, -⟩ := matches_blanks.mp h₉
  obtain ⟨l₁₀, -⟩ := matches_literal.mp h₁₀
  obtain ⟨u, hu⟩ := endsLine_bodies primary otherwise
  have hfront := (((l₁.append l₂).append l₃).append l₄).append l₅
  have hbodies : e₅.Leads (u ++ ['\n']) e₈ := hu ▸ l₆.append (l₇.append l₈)
  refine ⟨u₁ ++ u₂ ++ u₃ ++ u₄ ++ u₅ ++ u, indent, ?_⟩
  simpa using hfront.append (hbodies.append (l₉.append l₁₀))

end Block

namespace Resolver

open Block Text

variable {r : Resolver} {tag : Pattern} {line s t : Text} {c d : Cursor} {m : Match} {bound : Nat}

/-- In some pass, a block takes in a part of the last line, or the line break before it. -/
inductive TakesLast (r : Resolver) : Text → Prop
  | now {s : Text} {m : Match} (hmatch : m ∈ r.block.allMatches s) (hlast : '\n' ∉ s.drop m.stop) :
      TakesLast r s
  | later {s t : Text} (hpass : r.pass? s = some t) (hlater : TakesLast r t) : TakesLast r s

/-! ## Any tags -/

/-- A pass whose blocks all end before the last line keeps it. -/
theorem endsIn_pass? (hline : '\n' ∉ line) (hbefore : ∀ m ∈ r.block.allMatches s, '\n' ∈ s.drop m.stop)
    (hpass : r.pass? s = some t) (hs : EndsIn line s) : EndsIn line t := by
  rw [pass?_eq_leftToRight] at hpass
  split at hpass
  · cases hpass
  · next hedits =>
    obtain ⟨m, hm, hlast⟩ := List.mem_map.mp (List.getLast_mem hedits)
    have he : (r.edits s).getLast? = some ⟨m.start, m.stop, r.replacement m⟩ := by
      rw [hlast, List.getLast?_eq_some_getLast hedits]
    have hsuffix := Edit.suffix_leftToRight (ascending_edits r s) he fun f _ => Nat.zero_le f.stop
    obtain rfl := Option.some.inj hpass
    exact .inr (hs.of_suffix hline (List.drop_suffix _ s) (hbefore m hm) hsuffix)

theorem endsIn_settle (hline : '\n' ∉ line) (hspared : ¬ r.TakesLast s) (hs : EndsIn line s) :
    EndsIn line (r.settle bound s) := by
  induction bound generalizing s with
  | zero => exact hs
  | succ bound ih =>
      rw [settle]
      cases hpass : r.pass? s with
      | none => exact hs
      | some t =>
          refine ih (mt (.later hpass) hspared) (endsIn_pass? hline ?_ hpass hs)
          intro m hm
          by_contra hlast
          exact hspared (.now hm hlast)

theorem endsIn_resolve (hline : '\n' ∉ line) (hspared : ¬ r.TakesLast s) (hs : EndsIn line s) :
    EndsIn line (r.resolve s) :=
  endsIn_settle hline hspared hs

/-! ## Tags that are patterns in their own right -/

theorem closes_of_matchAt? (hr : r.block.pattern = Block.pattern tag)
    (h : r.block.matchAt? c = some (m, d)) : ∃ before, ∃ indent : Blanks,
      c.Leads (before ++ '\n' :: (indent.val ++ "#endif".toList)) d := by
  obtain ⟨g, hm, -⟩ := Regex.matches_of_matchAt? h
  rw [hr] at hm
  exact closes_of_matches hm

/-- A last line that a block takes in begins with the end of that block. -/
theorem closes_of_mem (hr : r.block.pattern = Block.pattern tag) (hline : '\n' ∉ line) (hs : EndsIn line s)
    (hm : m ∈ r.block.allMatches s) (hlast : '\n' ∉ s.drop m.stop) : Closes line := by
  obtain ⟨u, c, d, hu, hmatch⟩ := Regex.exists_matchAt?_of_mem hm
  obtain ⟨before, indent, hl⟩ := closes_of_matchAt? hr hmatch
  obtain ⟨-, -, -, hstop, -⟩ := Regex.matchAt?_leads hmatch
  have hall := hu.append hl
  have hrest : s = u ++ (before ++ '\n' :: (indent.val ++ "#endif".toList)) ++ d.rest := hall.rest
  have hdrop : s.drop m.stop = d.rest := by
    have hoffset : d.offset = 0 + _ := hall.offset
    rw [hstop, hoffset, Nat.zero_add, hrest, List.drop_left]
  have hmarker : '\n' ∉ indent.val ++ "#endif".toList ++ d.rest := by
    rw [hdrop] at hlast
    simp [indent.not_mem, hlast]
  have hcut : s = (u ++ before) ++ '\n' :: (indent.val ++ "#endif".toList ++ d.rest) := by
    simp [hrest]
  rcases hs with rfl | ⟨front, rfl⟩
  · exact absurd (by simp [hcut]) hline
  · obtain ⟨-, rfl⟩ := Text.cut_last hline hmarker hcut
    exact ⟨indent, List.prefix_append _ _⟩

/-- Blocks take in no last line but one that begins with the end of a block. -/
theorem not_takesLast (hr : r.block.pattern = Block.pattern tag) (hline : '\n' ∉ line)
    (hopen : ¬ Closes line) (hs : EndsIn line s) : ¬ r.TakesLast s := by
  intro htakes
  induction htakes with
  | now hm hlast => exact hopen (closes_of_mem hr hline hs hm hlast)
  | later hpass _ ih =>
      refine ih (endsIn_pass? hline ?_ hpass hs)
      intro m hm
      by_contra hlast
      exact hopen (closes_of_mem hr hline hs hm hlast)

/-- The resolver of tags that are patterns in their own right looks for blocks. -/
theorem pattern_of_ofTags {tags : TagSet} {branch : Branch} (htags : (tags.mapM Tag.pattern?).isSome)
    (h : ofTags tags branch = .ok r) : ∃ tag, r.block.pattern = Block.pattern tag := by
  obtain ⟨patterns, hpatterns⟩ := Option.isSome_iff_exists.mp htags
  rw [ofTags, Block.ofTags, hpatterns] at h
  split at h
  · next block hblock =>
    obtain rfl := Except.ok.inj h
    exact ⟨_, congrArg Regex.pattern (ofPatterns_eq_ok_iff.mp hblock).2⟩
  · cases h

end Resolver

namespace Text

variable {part line s : Text}

/-- An occurrence of a part without newline lies before the last line if that has none. -/
theorem rest_of_part (hpart : '\n' ∉ part) (hline : occursIn part line = false) {u t before : Text}
    (h : u ++ part ++ t = before ++ '\n' :: line) : ∃ after, t = after ++ '\n' :: line := by
  rcases List.append_eq_append_iff.mp h with ⟨after, -, ht⟩ | ⟨v, hfront, hv⟩
  · exact ⟨after, ht⟩
  cases v with
  | nil => exact ⟨[], hv.symm⟩
  | cons ch v =>
      obtain ⟨rfl, hsplit⟩ := List.cons.inj hv
      rcases List.append_eq_append_iff.mp hfront with ⟨w, -, hw⟩ | ⟨w, -, hw⟩
      · exact absurd (by simp [hw]) hpart
      cases w with
      | nil =>
          rw [List.nil_append] at hw
          exact absurd (by simp [← hw]) hpart
      | cons ch' w =>
          obtain ⟨-, rfl⟩ := List.cons.inj hw
          have hoccurs : occursIn part line := occursIn_iff.mpr ⟨w, t, by simpa using hsplit⟩
          rw [hoccurs] at hline
          cases hline

/-- A last line without the part is behind all occurrences. -/
theorem newline_mem_of_part (hpart : '\n' ∉ part) (hfree : occursIn part line = false) (hs : EndsIn line s)
    {u v : Text} (h : s = u ++ part ++ v) : '\n' ∈ v := by
  rcases hs with rfl | ⟨before, rfl⟩
  · have hoccurs : occursIn part s := occursIn_iff.mpr ⟨u, v, by rw [h, List.append_assoc]⟩
    rw [hoccurs] at hfree
    cases hfree
  · obtain ⟨after, rfl⟩ := rest_of_part hpart hfree h.symm
    simp

/-- Exchanging a part that occurs before the last line only keeps this line. -/
theorem endsIn_replaceAll (hline : '\n' ∉ line) (hbefore : ∀ u v, s = u ++ part ++ v → '\n' ∈ v)
    (by_ : Text) (hs : EndsIn line s) : EndsIn line (replaceAll part by_ s) := by
  have hne : part ≠ [] := by
    rintro rfl
    exact absurd (hbefore s [] (by simp)) List.not_mem_nil
  rw [replaceAll_eq hne]
  rcases hs with rfl | ⟨before, rfl⟩
  · rcases replaceFrom_cases by_ hne s with ⟨-, hkeep⟩ | ⟨-, u, t, hsplit, -⟩
    · exact .inl hkeep
    · have hnewline := hbefore u t (by rw [hsplit, List.append_assoc])
      exact absurd (by simp [hsplit, hnewline]) hline
  · refine .inr ?_
    induction hlength : before.length using Nat.strongRecOn generalizing before with
    | ind n ih =>
        rcases replaceFrom_cases by_ hne (before ++ '\n' :: line) with
          ⟨-, hkeep⟩ | ⟨-, u, t, hsplit, -, hreplace⟩
        · exact ⟨before, hkeep⟩
        · rw [← List.append_assoc] at hsplit
          have hnewline := hbefore u t hsplit
          obtain ⟨after, rfl⟩ := exists_of_suffix ⟨u ++ part, hsplit.symm⟩ hline hnewline
          have hlengths := congrArg List.length hsplit
          have hpos := List.length_pos_iff.mpr hne
          simp only [List.length_append] at hlengths
          obtain ⟨v, hv⟩ := ih after.length (by omega) after
            (fun w x h => hbefore (u ++ part ++ w) x (by simp [hsplit, h])) rfl
          exact ⟨u ++ (by_ ++ v), by simp [hreplace, hv]⟩

theorem lastExpression_of_endsIn (hline : '\n' ∉ line) (hfilled : isBlankText line = false)
    (hs : EndsIn line s) : Engine.lastExpression s = trim line := by
  rcases hs with rfl | ⟨before, rfl⟩
  · exact Engine.lastExpression_of_not_mem hline
  · exact Engine.lastExpression_append hline hfilled before

end Text

end Crosscheck
