import Crosscheck.Conditional.Resolver
import Crosscheck.Proofs.Conditional.NormalForm
import Crosscheck.Proofs.Conditional.Written
import Crosscheck.Proofs.Pattern.Relabel
/-!
# Tags stay in their group

A resolver is built from the text of its block, with the tags written into it. Where each of the tags is a
pattern in its own right, that is the block with these tags as a part of it, and nothing of a tag takes effect
outside. A tag set of such tags is rejected only for names of groups given twice, or for its size.
-/

namespace Crosscheck

open Pattern

namespace Pattern.Spelled

variable {f : Nat → Option Nat}

theorem le_place (sps : List Spelled) (j : Nat) (names : List (Text × Nat)) :
    j ≤ (place sps j names).2.1 := by
  induction sps generalizing j names with
  | nil => exact Nat.le_refl j
  | cons sp sps ih => exact Nat.le_trans (Nat.le_add_right j sp.groups) (ih _ _)

theorem depth_place (sps : List Spelled) (j : Nat) (names : List (Text × Nat)) :
    (place sps j names).1.map (·.depth) = sps.map (·.part.depth) := by
  induction sps generalizing j names with
  | nil => rfl
  | cons sp sps ih => exact congrArg (List.cons _) (ih _ _)

theorem room_place (sps : List Spelled) (j : Nat) (names : List (Text × Nat)) :
    ((place sps j names).1.map (·.value)).map room = (sps.map (·.part.value)).map room := by
  induction sps generalizing j names with
  | nil => rfl
  | cons sp sps ih => exact congrArg₂ List.cons (room_shift _ _) (ih _ _)

/-- The names behind the parts are those of the parts and those before. -/
theorem names_place (sps : List Spelled) (j : Nat) (names : List (Text × Nat)) :
    ((place sps j names).2.2.map (·.1)).Perm
      (sps.flatMap (fun sp => sp.names.map (·.1)) ++ names.map (·.1)) := by
  induction sps generalizing j names with
  | nil => exact .refl _
  | cons sp sps ih =>
      have hfrom : (sp.namesFrom j).map (·.1) = sp.names.map (·.1) := by simp [namesFrom]
      refine (ih _ _).trans ?_
      rw [List.map_append, hfrom, ← List.append_assoc, List.flatMap_cons]
      exact List.perm_append_comm.append_right _

/-- Parts whose groups are left out are the same wherever they stand. -/
theorem relabel_place {sps : List Spelled} (hsps : ∀ sp ∈ sps, sp.part.value.Numbered 1 (sp.groups + 1))
    (j : Nat) (names : List (Text × Nat)) (h : ∀ i, j < i → i ≤ (place sps j names).2.1 → f i = none) :
    ((place sps j names).1.map (·.value)).map (relabel f) = (sps.map (·.part.value)).map ungrouped := by
  induction sps generalizing j names with
  | nil => rfl
  | cons sp sps ih =>
      rw [List.forall_mem_cons] at hsps
      have hle := le_place sps (j + sp.groups) (sp.namesFrom j ++ names)
      rw [place_cons] at h ⊢
      refine congrArg₂ List.cons ?_ (ih hsps.2 _ _ fun i hi => h i (by omega))
      exact relabel_shift hsps.1 fun i hlo hhi => h _ (by omega) (by dsimp only; omega)

end Pattern.Spelled

namespace Pattern

theorem room_choice {ps qs : List Pattern} (h : ps.map room = qs.map room) :
    (choice ps).room = (choice qs).room := by
  induction ps generalizing qs with
  | nil =>
      obtain rfl := List.map_eq_nil_iff.mp h.symm
      rfl
  | cons p ps ih =>
      cases qs with
      | nil => cases h
      | cons q qs =>
          obtain ⟨hp, hps⟩ := List.cons.inj h
          have hrest := ih hps
          cases ps with
          | nil =>
              obtain rfl := List.map_eq_nil_iff.mp hps.symm
              exact hp
          | cons p' ps =>
              cases qs with
              | nil => cases hps
              | cons q' qs =>
                  change p.room + (choice (p' :: ps)).room + 32 = q.room + (choice (q' :: qs)).room + 32
                  rw [hrest, show p.room = q.room from hp]

end Pattern

namespace Block

/-! ## The block as it is read -/

theorem room_opt (p : Pattern) : (opt p).room = p.room + 32 := by
  rw [opt, room]
  exact Nat.mul_one _

theorem room_readAs {tag tag' : Pattern} (h : tag.room = tag'.room) (groups : Nat) :
    (readAs tag groups).room = (pattern tag').room := by
  have hif : (literal "#if ").room = 128 := by decide +kernel
  have helse : (literal "#else").room = 160 := by decide +kernel
  have hendif : (literal "#endif").room = 192 := by decide +kernel
  have hbody : ∀ index, (body index).room = (body primaryGroup).room := fun _ => rfl
  simp only [readAs, pattern, elseParts, chain, room, room_opt, hif, helse, hendif, hbody, h]
  generalize (body primaryGroup).room = b
  generalize blanks.room = c
  omega

/-- Which group of a block it is that has a number when the whole text is read. -/
def number? (groups i : Nat) : Option Nat :=
  if i ≤ 1 then some i else if i = groups + 1 then some primaryGroup
  else if i = groups + 2 then some alternateGroup else none

theorem number?_of_tag {groups i : Nat} (h : 1 < i) (hle : i ≤ groups) : number? groups i = none := by
  unfold number?
  rw [if_neg (by omega), if_neg (by omega), if_neg (by omega)]

/-- Different groups keep different numbers. -/
theorem number?_injective {groups i i' j : Nat} (h : number? groups i = some j)
    (h' : number? groups i' = some j) : i' = i := by
  unfold number? primaryGroup alternateGroup at h h'
  grind

section Numbers

variable {groups : Nat} (hgroups : 1 ≤ groups)
include hgroups

theorem number?_primary : number? groups (groups + 1) = some primaryGroup := by
  unfold number?
  rw [if_neg (by omega), if_pos rfl]

theorem number?_alternate : number? groups (groups + 2) = some alternateGroup := by
  unfold number?
  rw [if_neg (by omega), if_neg (by omega), if_pos rfl]

/-- The block as it is read runs as the block in its parts. -/
theorem run_readAs (tag : Pattern) {α : Type} (k : Continuation α) :
    (pattern (tag.relabel (number? groups))).run k =
      ((readAs tag groups).relabel (number? groups)).run k := by
  have hlead : number? groups 1 = some leadGroup := rfl
  have hbody : ∀ i j, number? groups i = some j → (body i).relabel (number? groups) = body j := by
    intro i j h
    simp only [body, opt, relabel, h, Pattern.star]
  unfold readAs elseParts
  rw [relabel_chain]
  simp only [List.map_cons, List.map_nil, opt, relabel, relabel_chain, hlead,
    hbody _ _ (number?_primary hgroups), hbody _ _ (number?_alternate hgroups)]
  rfl

end Numbers

end Block

namespace Resolver

open Block

variable {f : Nat → Option Nat} {r r' : Resolver}

/-- The group of a name in one block is the group of that name in the other. -/
def SharesGroup (f : Nat → Option Nat) (r r' : Resolver) (name : Text) : Prop :=
  ∃ i j, r.block.groupNamed? name = some i ∧ r'.block.groupNamed? name = some j ∧
    f i = some j ∧ ∀ i', f i' = some j → i' = i

theorem SharesGroup.named?_eq {name : Text} (h : SharesGroup f r r' name) (m : Match) :
    r'.named? (m.relabel f) name = r.named? m name := by
  obtain ⟨i, j, hi, hj, hf, honly⟩ := h
  rw [named?, named?, hi, hj]
  exact Groups.lookup_relabel hf honly m.groups

/-- Two resolvers make the same edits if their blocks match the same and name the same groups. -/
theorem edits_eq (hblock : Regex.Relabels f r.block r'.block) (hbranch : r'.branch = r.branch)
    (hlead : SharesGroup f r r' "lead") (hprimary : SharesGroup f r r' "primary")
    (halternate : SharesGroup f r r' "alternate") : r'.edits = r.edits := by
  funext s
  unfold edits
  rw [hblock.allMatches_eq, List.map_map]
  refine List.map_congr_left fun m _ => congrArg (Edit.mk m.start m.stop) ?_
  unfold replacement
  rw [hbranch, hlead.named?_eq, hprimary.named?_eq, halternate.named?_eq]

theorem resolve_congr (h : r'.edits = r.edits) : r'.resolve = r.resolve := by
  have hpass : r'.pass? = r.pass? := by
    funext s
    unfold pass?
    rw [h]
  have hsettle : ∀ n s, r'.settle n s = r.settle n s := by
    intro n
    induction n with
    | zero => exact fun _ => rfl
    | succ n ih =>
        intro s
        unfold settle
        rw [hpass]
        split
        · exact ih _
        · rfl
  funext s
  exact hsettle _ s

/-! ## Tag sets -/

variable {tags : TagSet} {found : List (Nested Pattern × List Text)}

end Resolver

namespace Block

variable {tags : TagSet} {found : List (Nested Pattern × List Text)} {names : List (Text × Nat)}
  {groups : Nat}

theorem lookup_bodyNames (h : ((bodyNames groups names).map (·.1)).Nodup) (hlead : [(leadName, 1)] <:+ names) :
    (bodyNames groups names).lookup "lead".toList = some 1 ∧
      (bodyNames groups names).lookup "primary".toList = some (groups + 1) ∧
      (bodyNames groups names).lookup "alternate".toList = some (groups + 2) := by
  obtain ⟨before, rfl⟩ := hlead
  have hname : "lead".toList = leadName := by decide
  refine ⟨?_, rfl, rfl⟩
  rw [hname, List.lookup_eq_some_iff]
  refine ⟨(alternateName, groups + 2) :: (primaryName, groups + 1) :: before, [], rfl, fun entry hentry => ?_⟩
  have hsplit : bodyNames groups (before ++ [(leadName, 1)]) =
      ((alternateName, groups + 2) :: (primaryName, groups + 1) :: before) ++ [(leadName, 1)] := rfl
  rw [hsplit, List.map_append, List.nodup_append] at h
  exact bne_iff_ne.mpr fun heq => h.2.2 _ (List.mem_map_of_mem hentry) leadName (by simp) heq.symm

/-- The block as it is read makes the edits of the block in its parts. -/
theorem edits_readAs {tag tag' : Pattern} (hgroups : 1 ≤ groups) (hlead : [(leadName, 1)] <:+ names)
    (hnames : ((bodyNames groups names).map (·.1)).Nodup) (htag : tag.relabel (number? groups) = tag')
    (branch : Branch) : (⟨⟨readAs tag groups, bodyNames groups names⟩, branch⟩ : Resolver).edits =
      (⟨⟨pattern tag', Block.names⟩, branch⟩ : Resolver).edits := by
  obtain ⟨hlead, hprimary, halternate⟩ := lookup_bodyNames hnames hlead
  have hblock : Regex.Relabels (number? groups) ⟨readAs tag groups, bodyNames groups names⟩
      ⟨pattern tag', Block.names⟩ :=
    Regex.relabels_of_run rfl fun k => by rw [← htag]; exact run_readAs hgroups tag k
  refine (@Resolver.edits_eq _ ⟨_, branch⟩ ⟨_, branch⟩ hblock rfl ?_ ?_ ?_).symm
  · exact ⟨1, leadGroup, hlead, rfl, rfl, fun _ => number?_injective rfl⟩
  · exact ⟨groups + 1, primaryGroup, hprimary, rfl, number?_primary hgroups,
      fun _ => number?_injective (number?_primary hgroups)⟩
  · exact ⟨groups + 2, alternateGroup, halternate, rfl, number?_alternate hgroups,
      fun _ => number?_injective (number?_alternate hgroups)⟩

theorem mapM_pattern?_eq (tags : TagSet) : tags.mapM Tag.pattern? =
    (tags.mapM Tag.spelled?).map (List.map fun sp => (sp.part, sp.names.map (·.1))) := by
  induction tags with
  | nil => rfl
  | cons tag tags ih =>
      rw [List.mapM_cons, List.mapM_cons, ih, Tag.pattern?_eq]
      cases tag.spelled? with
      | none => rfl
      | some sp => cases tags.mapM Tag.spelled? <;> rfl

/-- Tags that are patterns in their own right are read as these patterns. -/
theorem exists_spelled (h : tags.mapM Tag.pattern? = some found) : ∃ sps, spelled? tags = some sps ∧
    (∀ sp ∈ sps, sp.part.value.Numbered 1 (sp.groups + 1)) ∧
    choice (sps.map (·.part.value)) = anyTag (found.map (·.1.value)) ∧
    choice ((sps.map (·.part.value)).map ungrouped) = anyTag ((found.map (·.1.value)).map ungrouped) ∧
    sps.flatMap (fun sp => sp.names.map (·.1)) = found.flatMap (·.2) ∧
    (maxDepth < max 10 (Nested.depthOf (sps.map (·.part.depth)) + 2) ↔
      maxDepth < Nested.depthOf (found.map (·.1.depth)) + 2) := by
  cases tags with
  | nil =>
      cases h
      exact ⟨_, rfl, List.forall_mem_singleton.mpr ⟨trivial, trivial⟩, rfl, rfl, rfl, by decide⟩
  | cons tag tags =>
      rw [mapM_pattern?_eq] at h
      obtain ⟨sps, hsps, rfl⟩ := Option.map_eq_some_iff.mp h
      have hspelled := forall₂_of_mapM hsps
      have hnumbered : ∀ sp ∈ sps, sp.part.value.Numbered 1 (sp.groups + 1) :=
        ((List.forall₂_and_left _ _).mp (hspelled.imp fun _ _ h => ⟨Tag.numbered h, h⟩)).1
      have hvalues : (sps.map fun sp => (sp.part, sp.names.map (·.1))).map (·.1.value) =
          sps.map (·.part.value) := by
        rw [List.map_map]
        rfl
      refine ⟨sps, hsps, hnumbered, ?_, ?_, ?_, ?_⟩
      · rw [hvalues]
        cases hspelled
        rfl
      · rw [hvalues]
        cases hspelled
        rfl
      · rw [List.flatMap_map]
      · rw [List.map_map]
        change maxDepth < max 10 (Nested.depthOf (sps.map (·.part.depth)) + 2) ↔ 
          maxDepth < Nested.depthOf (sps.map (·.part.depth)) + 2
        simp only [maxDepth]
        omega

theorem read_spelling (h : tags.mapM Tag.pattern? = some found) :
    (∃ d, Regex.read (spelling tags) = .error d ∧ ofPatterns found = .error d) ∨
      ∃ whole block, Regex.read (spelling tags) = .ok whole ∧ ofPatterns found = .ok block ∧
        ∀ branch, (⟨whole, branch⟩ : Resolver).edits = (⟨block, branch⟩ : Resolver).edits := by
  obtain ⟨sps, hsps, hnumbered, hvalues, hungrouped, hnames, hdepth⟩ := exists_spelled h
  have hread := readWhole_spelling hsps rfl
  have hle := Spelled.le_place sps 1 [(leadName, 1)]
  have hsuffix := Spelled.suffix_place sps 1 [(leadName, 1)]
  have hperm := Spelled.names_place sps 1 [(leadName, 1)]
  have hrelabel := Spelled.relabel_place hnumbered 1 [(leadName, 1)] fun i hi => number?_of_tag hi
  have hroom := room_choice (Spelled.room_place sps 1 [(leadName, 1)])
  rw [Spelled.depth_place, if_congr hdepth rfl rfl] at hread
  generalize Spelled.place sps 1 [(leadName, 1)] = placed at *
  obtain ⟨parts, groups, names⟩ := placed
  dsimp only at *
  rw [hvalues] at hroom
  rw [room_readAs hroom] at hread
  have hnodup : ((bodyNames groups names).map (·.1)).Nodup ↔
      (found.flatMap (·.2) ++ Block.names.map (·.1)).Nodup := by
    refine List.Perm.nodup_iff (((hperm.cons primaryName).cons alternateName).trans ?_)
    have hfixed : Block.names.map (·.1) = [leadName] ++ [primaryName, alternateName] := by decide
    rw [hnames, hfixed, ← List.append_assoc]
    exact (@List.perm_append_comm _ [alternateName, primaryName] _).trans
      ((List.Perm.swap primaryName alternateName []).append_left _)
  rw [Regex.read, hread, ofPatterns]
  by_cases hn : (found.flatMap (·.2) ++ Block.names.map (·.1)).Nodup
  swap
  · rw [if_neg hn, if_neg fun h => hn (hnodup.mp h)]
    exact .inl ⟨_, rfl, rfl⟩
  rw [if_pos hn, if_pos (hnodup.mpr hn)]
  by_cases hd : maxDepth < Nested.depthOf (found.map (·.1.depth)) + 2
  · rw [if_pos hd, if_pos hd]
    exact .inl ⟨_, rfl, rfl⟩
  rw [if_neg hd, if_neg hd]
  by_cases hr : maxRoom < (pattern (anyTag (found.map (·.1.value)))).room
  · rw [if_pos hr, if_pos hr]
    exact .inl ⟨_, rfl, rfl⟩
  rw [if_neg hr, if_neg hr]
  refine .inr ⟨_, _, rfl, rfl, fun branch => ?_⟩
  exact edits_readAs hle hsuffix (hnodup.mpr hn) ((relabel_choice _).trans
    ((congrArg choice hrelabel).trans hungrouped)) branch

end Block

namespace Resolver

open Block

/-- A resolver is built exactly if the whole text of its block is a pattern, and does what that pattern says;
otherwise the pattern is reported as invalid. If each tag is a pattern of its own that does not end in a
comment, only a name given twice or the size of the block stands against it, and the block is the one
with the tags in their group: nothing else in it depends on them. -/
theorem ofTags_encloses (tags : TagSet) (branch : Branch) :
    (∀ d, Regex.read (spelling tags) = .error d →
      ofTags tags branch = .error (.invalidPattern d.message)) ∧
    (∀ whole, Regex.read (spelling tags) = .ok whole → ∃ r, ofTags tags branch = .ok r ∧
      r.edits = (⟨whole, branch⟩ : Resolver).edits ∧ r.resolve = (⟨whole, branch⟩ : Resolver).resolve) ∧
    ∀ found, tags.mapM Tag.pattern? = some found →
      ((∃ r, ofTags tags branch = .ok r) ↔ Fits found) ∧
      ∀ r, ofTags tags branch = .ok r →
        r.block = ⟨Block.pattern (anyTag ((found.map (·.1.value)).map ungrouped)), Block.names⟩ := by
  have hbuilt : ∀ {block}, Block.ofTags tags = .ok block → ofTags tags branch = .ok ⟨block, branch⟩ := by
    intro block h
    rw [ofTags, h]
  have hinvalid : ∀ {d}, Block.ofTags tags = .error d →
      ofTags tags branch = .error (.invalidPattern d.message) := by
    intro d h
    rw [ofTags, h]
  cases hfound : tags.mapM Tag.pattern? with
  | none =>
      have hblock : Block.ofTags tags = Regex.read (spelling tags) := by rw [Block.ofTags, hfound]
      refine ⟨fun d hd => hinvalid (hblock.trans hd), fun whole hwhole => ?_, fun _ h => by cases h⟩
      exact ⟨_, hbuilt (hblock.trans hwhole), rfl, rfl⟩
  | some found =>
      have hblock : Block.ofTags tags = ofPatterns found := by rw [Block.ofTags, hfound]
      have hok : ∀ {r}, ofTags tags branch = .ok r → ofPatterns found = .ok r.block := by
        intro r hr
        cases hx : ofPatterns found with
        | ok block =>
            rw [hbuilt (hblock.trans hx)] at hr
            cases hr
            rfl
        | error d =>
            rw [hinvalid (hblock.trans hx)] at hr
            cases hr
      have hread := read_spelling hfound
      refine ⟨fun d hd => ?_, fun whole hwhole => ?_, ?_⟩
      · obtain ⟨d', hd', hpatterns⟩ | ⟨_, _, hwhole, -⟩ := hread
        · cases hd.symm.trans hd'
          exact hinvalid (hblock.trans hpatterns)
        · cases hd.symm.trans hwhole
      · obtain ⟨_, hd, -⟩ | ⟨_, block, hwhole', hpatterns, hedits⟩ := hread
        · cases hwhole.symm.trans hd
        · cases hwhole.symm.trans hwhole'
          exact ⟨_, hbuilt (hblock.trans hpatterns), (hedits branch).symm, resolve_congr (hedits branch).symm⟩
      · rintro _ ⟨⟩
        refine ⟨⟨?_, fun hfits => ?_⟩, fun r hr => (ofPatterns_eq_ok_iff.mp (hok hr)).2⟩
        · rintro ⟨r, hr⟩
          exact (ofPatterns_eq_ok_iff.mp (hok hr)).1
        · exact ⟨_, hbuilt (hblock.trans (ofPatterns_eq_ok_iff.mpr ⟨hfits, rfl⟩))⟩

/-- A tag with characters that need escapes, and one with groups and alternatives of its own. -/
private def groupedTags : TagSet := [.literal "A.", .pattern "(?P<x>a)|(b)c"]

private def groupedPatterns : List (Nested Pattern × List Text) :=
  [(⟨literal "A.", 1⟩, []),
    (⟨.alt (.group 1 (.char 'a')) (.seq (.group 2 (.char 'b')) (.char 'c')), 4⟩, ["x"])]

theorem ofTags_encloses_grouped : ∃ r, ofTags groupedTags .primary = .ok r ∧
    r.block = ⟨Block.pattern (.alt (literal "A.") (.alt (.char 'a') (.seq (.char 'b') (.char 'c')))),
      Block.names⟩ ∧ r.resolve "p\n#if bc\nx\n#endif" = "p\nx".toList := by
  have hfound : groupedTags.mapM Tag.pattern? = some groupedPatterns := by decide +kernel
  have hfits : Fits groupedPatterns := ⟨by decide, by decide, by decide +kernel⟩
  obtain ⟨-, -, hencloses⟩ := ofTags_encloses groupedTags .primary
  obtain ⟨hbuilt, hblock⟩ := hencloses _ hfound
  obtain ⟨r, hr⟩ := hbuilt.mpr hfits
  have hresolved : (ofTags groupedTags .primary).toOption.map (·.resolve "p\n#if bc\nx\n#endif") =
      some "p\nx".toList := by decide +kernel
  refine ⟨r, hr, hblock r hr, ?_⟩
  rw [hr] at hresolved
  exact Option.some.inj hresolved

/-- A tag that is no pattern by itself is taken if its parentheses close those around it, and then an unfinished
block goes. A tag that is a pattern is rejected if its group has a name of the block's own groups. -/
theorem ofTags_unbalanced :
    (Regex.read "a))|(?:(?:b").isOk = false ∧
      (∃ r, ofTags [.pattern "a))|(?:(?:b"] .primary = .ok r ∧ r.resolve "#if a" = []) ∧
      (Regex.read "(?P<lead>a)").isOk ∧ (ofTags [.pattern "(?P<lead>a)"] .primary).isOk = false := by
  have hresolved : (ofTags [.pattern "a))|(?:(?:b"] .primary).toOption.map (·.resolve "#if a") = some [] := by
    decide +kernel
  exact ⟨by decide +kernel, exists_of_toOption hresolved, by decide +kernel, by decide +kernel⟩

end Resolver

end Crosscheck
