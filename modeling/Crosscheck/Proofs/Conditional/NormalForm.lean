import Crosscheck.Proofs.Conditional.Settlement
/-!
# Passes come to an end

What a pass puts in the place of a block is the text of the block with characters deleted, and at least the
markers are among them. So every pass that finds a block shortens the text by 11 characters or more, and
the passes end with a text in which there is no block, long before the bound that `resolve` sets.
-/

namespace Crosscheck

namespace Block.Layout

variable {l : Layout} {branch : Branch} {b : Body} {u : Text}

/-- A body stands before the end of its last line and the last marker. -/
theorem chosen_sublist (h : l.chosen branch = some b) :
    (b.val ++ '\n' :: "#endif".toList).Sublist l.after := by
  have hclosing : "#endif".toList.Sublist (l.closing.val ++ "#endif".toList) :=
    List.sublist_append_right _ _
  cases branch with
  | primary =>
      have hp : l.primary = some b := h
      rw [after, hp, bodyText, List.append_assoc]
      exact (List.Sublist.refl _).append
        ((hclosing.trans (List.sublist_append_right _ _)).cons_cons '\n')
  | alternate =>
      obtain ⟨⟨m, b'⟩, ho, hb⟩ := Option.bind_eq_some_iff.mp (show l.otherwise.bind (·.2) = some b from h)
      obtain rfl : b' = some b := hb
      have helse : (b.val ++ ['\n']).Sublist (elseText (some (m, some b))) :=
        (List.sublist_cons_self _ _).trans (List.sublist_append_right _ _)
      rw [after, ho, List.append_cons]
      exact (helse.append hclosing).trans (List.sublist_append_right _ _)

theorem text_sublist (h : u.Sublist l.after) : (l.lead ++ ("#if \n".toList ++ u)).Sublist l.text := by
  have hline : ("\n".toList ++ u).Sublist (l.condition ++ '\n' :: l.after) :=
    (h.cons_cons '\n').trans (List.sublist_append_right _ _)
  have hopening : ("#if ".toList ++ ("\n".toList ++ u)).Sublist
      (l.indent.val ++ ("#if ".toList ++ (l.condition ++ '\n' :: l.after))) :=
    ((List.Sublist.refl _).append hline).trans (List.sublist_append_right _ _)
  exact (List.Sublist.refl l.lead).append hopening

/-- What is kept of a block is its text without some characters, 11 at least. -/
theorem kept_sublist (l : Layout) (branch : Branch) :
    (l.kept branch).Sublist l.text ∧ (l.kept branch).length + 11 ≤ l.text.length := by
  cases hb : l.chosen branch with
  | none =>
      have hclosing : "#endif".toList.Sublist l.after :=
        ((List.sublist_append_right _ _).trans (List.sublist_append_right _ _)).trans
          (List.sublist_append_right _ _)
      have hlength := (text_sublist hclosing).length_le
      rw [kept, hb]
      refine ⟨List.nil_sublist _, ?_⟩
      simp at hlength ⊢
      omega
  | some b =>
      have htext := text_sublist (chosen_sublist hb)
      have hlength := htext.length_le
      rw [kept, hb]
      refine ⟨List.Sublist.trans ?_ htext, ?_⟩
      · exact (List.Sublist.refl l.lead).append
          ((List.sublist_append_left _ _).trans (List.sublist_append_right _ _))
      · simp at hlength ⊢
        omega

end Block.Layout

namespace Resolver

open Block

/-- What is left after exactly `n` passes, each of which finds a block. -/
def passes? (r : Resolver) : Nat → Text → Option Text
  | 0, s => some s
  | n + 1, s => (r.pass? s).bind (r.passes? n)

variable {r : Resolver} {s t : Text}

theorem pass?_eq_some (hr : r.block.Consuming) (h : r.pass? s = some t) :
    t = r.sweep s ∧ r.block.find? (Cursor.start s) ≠ none := by
  have hsweep : t = r.sweep s := by
    rcases pass?_eq hr s with hs | ⟨hs, -⟩
    · exact Option.some.inj (h.symm.trans hs)
    · cases hs.symm.trans h
  refine ⟨hsweep, fun hnone => ?_⟩
  have hedits : r.edits s = [] := by rw [edits, hr.allMatches_eq_nil.mpr hnone, List.map_nil]
  rw [pass?, hedits] at h
  cases h

/-- There is no further pass exactly if no match is found. -/
theorem pass?_eq_none (hr : r.block.Consuming) :
    r.pass? s = none ↔ r.block.find? (Cursor.start s) = none := by
  rw [← hr.allMatches_eq_nil, pass?, edits]
  cases r.block.allMatches s <;> simp

namespace TakesBlocks

theorem deletes (hr : r.TakesBlocks) : r.block.Deletes r.replacement 11 := by
  intro c m d u hm hu
  obtain ⟨l, -, hl, hgroups⟩ := hr.layout_of_match hm
  obtain rfl := hu.text_unique hl
  rw [hr.replacement_eq hgroups]
  exact l.kept_sublist r.branch

/-- A pass deletes characters, and at least 11 of them. -/
theorem pass?_deletes (hr : r.TakesBlocks) (h : r.pass? s = some t) :
    t.Sublist s ∧ t.length + 11 ≤ s.length := by
  obtain ⟨rfl, hfound⟩ := pass?_eq_some hr.consuming h
  obtain ⟨hsub, hless⟩ := Regex.rewriteAt_deletes hr.deletes hr.consuming (Cursor.start s)
  exact ⟨hsub, hless hfound⟩

/-- Any bound that leaves room for a pass every 11 characters lets the passes come to their end. -/
theorem settle_spec (hr : r.TakesBlocks) {bound : Nat} (hb : s.length < 11 * (bound + 1)) :
    ∃ n, 11 * n ≤ s.length ∧ r.passes? n s = some (r.settle bound s) ∧
      r.pass? (r.settle bound s) = none ∧ (r.settle bound s).Sublist s := by
  induction bound generalizing s with
  | zero =>
      have hnone : r.pass? s = none := by
        cases h : r.pass? s with
        | none => rfl
        | some t =>
            have := (hr.pass?_deletes h).2
            omega
      exact ⟨0, Nat.zero_le _, rfl, hnone, .refl s⟩
  | succ bound ih =>
      rw [settle]
      cases h : r.pass? s with
      | none => exact ⟨0, Nat.zero_le _, rfl, h, .refl s⟩
      | some t =>
          obtain ⟨hsub, hless⟩ := hr.pass?_deletes h
          obtain ⟨n, hn, hpasses, hend, ht⟩ := ih (s := t) (by omega)
          refine ⟨n + 1, by omega, ?_, hend, ht.trans hsub⟩
          rw [passes?, h]
          exact hpasses

theorem resolve_spec (hr : r.TakesBlocks) (s : Text) :
    ∃ n, 11 * n ≤ s.length ∧ r.passes? n s = some (r.resolve s) ∧
      r.pass? (r.resolve s) = none ∧ (r.resolve s).Sublist s :=
  hr.settle_spec (by omega)

theorem pass?_resolve (hr : r.TakesBlocks) (s : Text) : r.pass? (r.resolve s) = none := by
  obtain ⟨n, -, -, hend, -⟩ := hr.resolve_spec s
  exact hend

end TakesBlocks

theorem resolve_of_pass?_eq_none (h : r.pass? s = none) : r.resolve s = s := by
  rw [resolve, settle, h]

end Resolver

/-! ## Tags that are patterns in their own right -/

namespace Pattern

theorem silent_ungrouped (p : Pattern) : p.ungrouped.Silent := by
  induction p with
  | empty => exact fun hm => hm.2
  | char => exact fun hm => hm.2
  | set => exact fun hm => hm.2
  | anchor => exact fun hm => hm.2.2
  | seq p q ihp ihq =>
      intro c d g h ⟨_, _, hp, hq⟩
      exact (ihq hq).trans (ihp hp)
  | alt p q ihp ihq =>
      intro c d g h hm
      exact hm.elim ihp ihq
  | group i p ih => exact ih
  | rounds p least most greedy ih =>
      intro c d g h ⟨n, _, _, ht⟩
      exact Silent.times ih ht

end Pattern

namespace Block

variable {tags : List (Pattern.Nested Pattern × List Text)} {block : Regex}

/-- What a block asks of tags that are patterns in their own right: no name is given twice, and the block is
neither nested too deeply nor too large. -/
structure Fits (tags : List (Pattern.Nested Pattern × List Text)) : Prop where
  names : (tags.flatMap (·.2) ++ Block.names.map (·.1)).Nodup
  depth : Pattern.Nested.depthOf (tags.map (·.1.depth)) + 2 ≤ Pattern.maxDepth
  room : (pattern (anyTag (tags.map (·.1.value)))).room ≤ Pattern.maxRoom

/-- The block of tags that are patterns in their own right has them in their place. -/
theorem ofPatterns_eq_ok_iff : ofPatterns tags = .ok block ↔
    Fits tags ∧ block = ⟨pattern (anyTag ((tags.map (·.1.value)).map Pattern.ungrouped)), names⟩ := by
  rw [ofPatterns]
  by_cases hnames : (tags.flatMap (·.2) ++ names.map (·.1)).Nodup
  swap
  · rw [if_neg hnames]
    exact ⟨fun h => (by cases h), fun h => absurd h.1.names hnames⟩
  by_cases hdepth : Pattern.maxDepth < Pattern.Nested.depthOf (tags.map (·.1.depth)) + 2
  · rw [if_pos hnames, if_pos hdepth]
    exact ⟨fun h => (by cases h), fun h => absurd h.1.depth (Nat.not_le.mpr hdepth)⟩
  by_cases hroom : Pattern.maxRoom < (pattern (anyTag (tags.map (·.1.value)))).room
  · rw [if_pos hnames, if_neg hdepth, if_pos hroom]
    exact ⟨fun h => (by cases h), fun h => absurd h.1.room (Nat.not_le.mpr hroom)⟩
  rw [if_pos hnames, if_neg hdepth, if_neg hroom]
  exact ⟨fun h => ⟨⟨hnames, Nat.not_lt.mp hdepth, Nat.not_lt.mp hroom⟩, (Except.ok.inj h).symm⟩,
    fun h => congrArg Except.ok h.2.symm⟩

end Block

namespace Resolver

open Block

variable {r : Resolver} {tags : TagSet} {branch : Branch}

theorem takesBlocks_of_ofTags (htags : (tags.mapM Tag.pattern?).isSome)
    (h : ofTags tags branch = .ok r) : r.TakesBlocks ∧ r.branch = branch := by
  obtain ⟨patterns, hpatterns⟩ := Option.isSome_iff_exists.mp htags
  rw [ofTags, Block.ofTags, hpatterns] at h
  split at h
  · next block hblock =>
    obtain rfl := Except.ok.inj h
    obtain ⟨-, rfl⟩ := ofPatterns_eq_ok_iff.mp hblock
    refine ⟨⟨⟨_, ?_, rfl⟩, rfl⟩, rfl⟩
    rw [anyTag]
    split
    · exact Pattern.silent_never
    · refine Pattern.silent_choice fun p hp => ?_
      obtain ⟨q, -, rfl⟩ := List.mem_map.mp hp
      exact q.silent_ungrouped
  · cases h

private theorem isSome_mapM {α β : Type} {f : α → Option β} {l : List α}
    (h : ∀ a ∈ l, (f a).isSome) : (l.mapM f).isSome := by
  induction l with
  | nil => rfl
  | cons a l ih =>
      rw [List.forall_mem_cons] at h
      obtain ⟨b, hb⟩ := Option.isSome_iff_exists.mp h.1
      obtain ⟨bs, hbs⟩ := Option.isSome_iff_exists.mp (ih h.2)
      simp [List.mapM_cons, hb, hbs]

/-- Every pass that changes a text deletes 11 characters or more and puts none in. So the passes end after
one for every 11 characters at most, with a text that no block matches and that resolving does not change.
This holds if each tag is a pattern of its own that does not end in a comment. -/
theorem resolve_normal_form (htags : ∀ tag ∈ tags, tag.pattern?.isSome)
    (hr : ofTags tags branch = .ok r) (s : Text) :
    (∀ t, r.pass? s = some t → t.Sublist s ∧ t.length + 11 ≤ s.length) ∧
      (∃ n ≤ s.length / 11, r.passes? n s = some (r.resolve s)) ∧ r.pass? (r.resolve s) = none ∧
      r.block.Absent (r.resolve s) ∧ r.resolve (r.resolve s) = r.resolve s ∧
      (r.resolve s).Sublist s := by
  obtain ⟨hblocks, -⟩ := takesBlocks_of_ofTags (isSome_mapM htags) hr
  obtain ⟨n, hn, hpasses, hend, hsub⟩ := hblocks.resolve_spec s
  have habsent := Regex.absent_iff.mpr ((pass?_eq_none hblocks.consuming).mp hend)
  exact ⟨fun t ht => hblocks.pass?_deletes ht, ⟨n, by omega, hpasses⟩, hend, habsent,
    resolve_of_pass?_eq_none hend, hsub⟩

theorem exists_of_toOption {ε α β : Type} {x : Except ε α} {f : α → β} {b : β}
    (h : x.toOption.map f = some b) : ∃ a, x = .ok a ∧ f a = b := by
  cases x with
  | error e => cases h
  | ok a => exact ⟨a, rfl, Option.some.inj h⟩

/-- A tag that may take in number signs and line ends. -/
private def wideTags : TagSet := [.literal "A", .pattern "(?s)x.*y"]

private def wideText : Text := "p\n#if x#y\nq\n#else\n#if A \nb\n#endif\n#endif"

theorem resolve_normal_form_wide :
    (∀ tag ∈ wideTags, tag.pattern?.isSome) ∧ ∃ r, ofTags wideTags .primary = .ok r ∧
      (∃ n ≤ 3, r.passes? n wideText = some "p\nq".toList) ∧ r.block.Absent "p\nq" := by
  have htags : ∀ tag ∈ wideTags, tag.pattern?.isSome := by decide +kernel
  have hresolved : (ofTags wideTags .primary).toOption.map (·.resolve wideText) =
      some "p\nq".toList := by decide +kernel
  obtain ⟨r, hr, heq⟩ := exists_of_toOption hresolved
  have hvalue : r.resolve wideText = "p\nq".toList := heq
  obtain ⟨-, hpasses, -, habsent, -, -⟩ := resolve_normal_form htags hr wideText
  rw [hvalue] at hpasses habsent
  exact ⟨htags, r, hr, hpasses, habsent⟩

/-- The comment at the end of the first pattern goes on into the second one, and what stands behind the line
end of that closes the groups around the tags: an unfinished block counts as one, and goes. -/
theorem pass?_unfinished_block :
    (Regex.read "(?x)a#").isOk ∧ (Regex.read "[\n))|(?:(?:]").isOk ∧
      ∃ r, ofTags [.pattern "(?x)a#", .pattern "[\n))|(?:(?:]"] .primary = .ok r ∧
        r.pass? "#if a" = some [] ∧ r.resolve "#if a" = [] := by
  have hresolved : (ofTags [.pattern "(?x)a#", .pattern "[\n))|(?:(?:]"] .primary).toOption.map
      (fun r => (r.pass? "#if a", r.resolve "#if a")) = some (some [], []) := by decide +kernel
  obtain ⟨r, hr, hvalues⟩ := exists_of_toOption hresolved
  obtain ⟨hpass, hresolve⟩ := Prod.mk.inj hvalues
  exact ⟨by decide +kernel, by decide +kernel, r, hr, hpass, hresolve⟩

end Resolver

end Crosscheck
