import Crosscheck.Proofs.Pattern.Enclosed
/-!
# Reading step by step

A whole pattern keeps its meaning as one of the alternatives of a group. Reading then goes on behind it as if
it were a single part, with more groups and names than before.
-/

namespace Crosscheck.Pattern

open Read

/-- A place with no flags set and no comment open. -/
def plain (s : Text) (groups : Nat) (names : List (Text × Nat)) : Progress :=
  ⟨s, .initial, groups + 1, names, false⟩

/-- What has been read to the end is a whole pattern, within the limits. -/
theorem readWhole_of_read {s : Text} {alternatives : List (Nested Pattern)} {q : Progress}
    (h : readAlternatives (4 * s.length + 4) (plain s 0 []) = .ok (alternatives, q)) (hrest : q.rest = []) :
    readWhole s =
      if maxDepth < (Nested.join choice alternatives).depth then .error .tooDeep
      else if maxRoom < (Nested.join choice alternatives).value.room then .error .tooLarge
      else .ok (.join choice alternatives, q) := by
  change (readAlternatives (4 * s.length + 4) (plain s 0 [])).bind _ = _
  rw [h]
  change (if !q.rest.isEmpty then _ else _) = _
  rw [hrest]
  rfl

theorem readWhole_of_error {s : Text} {d : Defect}
    (h : readAlternatives (4 * s.length + 4) (plain s 0 []) = .error d) : readWhole s = .error d := by
  change (readAlternatives (4 * s.length + 4) (plain s 0 [])).bind _ = _
  rw [h]
  rfl

theorem exists_of_readWhole {s : Text} {p : Nested Pattern} {q : Progress}
    (h : readWhole s = .ok (p, q)) : ∃ alternatives,
      readAlternatives (4 * s.length + 4) (plain s 0 []) = .ok (alternatives, q) ∧
        p = .join choice alternatives ∧ q.rest = [] := by
  change (readAlternatives (4 * s.length + 4) (plain s 0 [])).bind _ = .ok (p, q) at h
  cases hread : readAlternatives (4 * s.length + 4) (plain s 0 []) with
  | error d =>
      rw [hread] at h
      cases h
  | ok found =>
      obtain ⟨alternatives, q'⟩ := found
      rw [hread] at h
      change (if !q'.rest.isEmpty then _ else if _ then _ else if _ then _ else _) = _ at h
      split at h
      · cases h
      · next hrest =>
        split at h
        · cases h
        · split at h
          · cases h
          · cases h
            exact ⟨alternatives, rfl, rfl, by simpa using hrest⟩

/-- What a text is read as: a part with its groups counted from 1, their names, and how many there are. -/
structure Spelled where
  part : Nested Pattern
  names : List (Text × Nat)
  groups : Nat

/-- What a whole pattern is read as, unless it ends in a comment. -/
def Spelled.ofWhole? (s : Text) : Option Spelled :=
  match readWhole s with
  | .ok (p, progress) =>
    if progress.openComment then none else some ⟨p, progress.names, progress.nextGroup - 1⟩
  | .error _ => none

/-- The names of the part, with its groups counted on. -/
def Spelled.namesFrom (sp : Spelled) (groups : Nat) : List (Text × Nat) :=
  sp.names.map fun entry => (entry.1, entry.2 + groups)

theorem Spelled.fresh_iff {sp : Spelled} {e : Frame} :
    e.Fresh sp.names ↔ ((sp.namesFrom e.groups ++ e.names).map (·.1)).Nodup := by
  rw [Frame.Fresh, namesFrom, List.map_append, List.map_append, List.map_map]
  rfl

/-- A whole pattern is the same between the parentheses of a group. -/
theorem Spelled.readInside {s : Text} {sp : Spelled} (h : ofWhole? s = some sp) :
    sp.part.value.Numbered 1 (sp.groups + 1) ∧ ∀ {m j t names}, 4 * s.length + 5 ≤ m →
      (names.map (·.1)).Nodup → readInside m .initial (plain (s ++ ')' :: t) j names) =
        if ((sp.namesFrom j ++ names).map (·.1)).Nodup then
          .ok (sp.part.shift j, plain t (j + sp.groups) (sp.namesFrom j ++ names))
        else .error .repeatedGroupName := by
  rw [ofWhole?] at h
  split at h
  next p q hread =>
    split at h
    · cases h
    next hopen =>
      cases h
      obtain ⟨alternatives, halternatives, rfl, hrest⟩ := exists_of_readWhole hread
      have hfollow := fun e m hm => (groupsFollow e (4 * s.length + 4)).alternatives (m := m)
        (p := plain s 0 []) (Nat.le_refl 1) hm alternatives q halternatives
      obtain ⟨hnumber, hnumbered, -⟩ := hfollow ⟨[], 0, []⟩ _ (Nat.le_refl _)
      have hnext : q.nextGroup - 1 + 1 = q.nextGroup := Nat.sub_add_cancel hnumber
      refine ⟨by rw [hnext]; exact numbered_join hnumbered, fun {m j t names} hm hnames => ?_⟩
      obtain ⟨m, rfl⟩ : ∃ n, m = n + 1 := ⟨m - 1, by omega⟩
      obtain ⟨-, -, hread⟩ := hfollow ⟨t, j, names⟩ m (by omega)
      have hread := (hread (by simpa using hopen)).2.2 hnames
      have hplace : Frame.place ⟨t, j, names⟩ (plain s 0 []) = plain (s ++ ')' :: t) j names := by
        simp [Frame.place, plain, Nat.add_comm]
      have hfresh := @fresh_iff ⟨.join choice alternatives, q.names, q.nextGroup - 1⟩ ⟨t, j, names⟩
      rw [hplace, if_congr hfresh rfl rfl] at hread
      change (readAlternatives m >>= fun alternatives => _) _ = _
      rw [bind_apply, hread]
      split
      · obtain ⟨rest, flags, nextGroup, own, comment⟩ := q
        obtain rfl : rest = [] := hrest
        obtain rfl : comment = false := by simpa using hopen
        have hgroups : nextGroup + j = j + (nextGroup - 1) + 1 := by
          change 1 ≤ nextGroup at hnumber
          omega
        rw [plain, ← hgroups, ← shift_join]
        rfl
      · rfl
  next => cases h

/-! ## Single steps -/

section Steps

variable {n j : Nat} {items : List (Option (Nested Pattern))} {c : Char} {s : Text}
  {names : List (Text × Nat)} {p : Progress} {d : Defect}

/-- The characters that do not stand for themselves outside a class. -/
def syntaxChars : Text := ['\\', '.', '+', '*', '?', '(', ')', '|', '[', '\x7b', '^', '$']

theorem readAtom_char (h : c ∉ syntaxChars) :
    readAtom (plain (c :: s) j names) = .ok (.char c, plain s j names) := by
  have hne : ∀ d ∈ syntaxChars, c ≠ d := fun d hd => (ne_of_mem_of_not_mem hd h).symm
  change (if c = '\\' then _ else if c = '.' then _ else if c = '^' then _ else if c = '$' then _
    else charPattern c : Read Pattern) (plain s j names) = _
  rw [if_neg (hne _ (by decide)), if_neg (hne _ (by decide)), if_neg (hne _ (by decide)),
    if_neg (hne _ (by decide))]
  rfl

theorem readItems_char (h : c ∉ syntaxChars) : readItems (n + 1) items (plain (c :: s) j names) =
    readItems n (some (.flat (.char c)) :: items) (plain s j names) := by
  have hne : ∀ d ∈ syntaxChars, c ≠ d := fun d hd => (ne_of_mem_of_not_mem hd h).symm
  change (if c = ')' ∨ c = '|' then _ else if c = '(' then _ else if c = '[' then _
    else if c = '*' ∨ c = '+' ∨ c = '?' then _ else if c = '\x7b' then _
    else readAtom >>= _ : Read (Nested Pattern)) (plain (c :: s) j names) = _
  rw [if_neg (not_or.mpr ⟨hne _ (by decide), hne _ (by decide)⟩), if_neg (hne _ (by decide)),
    if_neg (hne _ (by decide)),
    if_neg (not_or.mpr ⟨hne _ (by decide), not_or.mpr ⟨hne _ (by decide), hne _ (by decide)⟩⟩),
    if_neg (hne _ (by decide)), bind_of_ok (readAtom_char h)]

/-- The characters of a text as parts of a sequence, the latest first. -/
def charItems (s : Text) : List (Option (Nested Pattern)) := (s.map fun c => some (.flat (.char c))).reverse

theorem charItems_cons (c : Char) (s : Text) : charItems (c :: s) = charItems s ++ [some (.flat (.char c))] := by
  rw [charItems, List.map_cons, List.reverse_cons]
  rfl

/-- A text that stands for itself. -/
theorem readItems_chars (cs : Text) (h : cs.all (· ∉ syntaxChars)) :
    readItems (n + cs.length) items (plain (cs ++ s) j names) =
      readItems n (charItems cs ++ items) (plain s j names) := by
  induction cs generalizing items with
  | nil => rfl
  | cons c cs ih =>
      rw [List.all_cons, Bool.and_eq_true, decide_eq_true_iff] at h
      rw [charItems_cons, List.append_assoc, List.singleton_append, ← ih h.2]
      exact readItems_char h.1

theorem readItems_escaped (h : c ∈ specialChars) :
    readItems (n + 1) items (plain ('\\' :: c :: s) j names) =
      readItems n (some (.flat (.char c)) :: items) (plain s j names) := by
  have hatom : ∀ c ∈ specialChars,
      readAtom (plain ('\\' :: c :: s) j names) = .ok (.char c, plain s j names) := by
    iterate 18 refine List.forall_mem_cons.mpr ⟨rfl, ?_⟩
    exact List.forall_mem_nil _
  change (readAtom >>= fun item => readItems n (some (.flat item) :: items)) _ = _
  exact bind_of_ok (hatom c h)

/-- A text in escapes where it needs them. -/
theorem readItems_escape (cs : Text) : readItems (n + cs.length) items (plain (escape cs ++ s) j names) =
    readItems n (charItems cs ++ items) (plain s j names) := by
  have hspecial : syntaxChars ⊆ specialChars := by decide
  induction cs generalizing items with
  | nil => rfl
  | cons c cs ih =>
      rw [charItems_cons, List.append_assoc, List.singleton_append, ← ih]
      unfold escape
      rw [List.flatMap_cons]
      by_cases hc : c ∈ specialChars
      · rw [if_pos (by simpa using hc)]
        exact readItems_escaped hc
      · rw [if_neg (by simpa using hc)]
        exact readItems_char fun h => hc (hspecial h)

theorem length_le_escape (s : Text) : s.length ≤ (escape s).length := by
  unfold escape
  induction s with
  | nil => exact Nat.le_refl 0
  | cons c s ih =>
      rw [List.flatMap_cons, List.length_append, List.length_cons, Nat.add_comm]
      refine Nat.add_le_add ?_ ih
      split <;> simp

theorem sequence_charItems (s : Text) :
    sequence (charItems s ++ []) = ⟨literal s, Nested.depthOf (s.map fun _ => 0)⟩ := by
  have hvalues : (charItems s).reverse.filterMap (fun item => item.map (·.value)) = s.map char := by
    rw [charItems, List.reverse_reverse, List.filterMap_map, ← List.filterMap_eq_map]
    rfl
  have hdepths : (charItems s).map (fun item => (item.map (·.depth)).getD 0) = s.map fun _ => 0 := by
    have hflat : ((s.map fun _ => 0).reverse : List Nat) = s.map fun _ => 0 := by simp
    rw [charItems, List.map_reverse, List.map_map]
    exact hflat
  rw [List.append_nil, sequence, hvalues, hdepths, literal]

theorem shift_literal (s : Text) (j : Nat) : (literal s).shift j = literal s := by
  rw [literal, shift_chain, List.map_map]
  rfl

/-- A sequence ends where its alternative does. -/
theorem readItems_end (h : c = '|' ∨ c = ')') :
    readItems (n + 1) items (plain (c :: s) j names) = .ok (sequence items, plain (c :: s) j names) := by
  rcases h with rfl | rfl <;> rfl

/-- Up to the end of a group or of the text there is one alternative. -/
theorem readAlternatives_ok {q : Progress} {part : Nested Pattern} (h : readItems n [] p = .ok (part, q))
    (hq : q.rest = [] ∨ ∃ s, q.rest = ')' :: s) : readAlternatives (n + 1) p = .ok ([part], q) := by
  change (readItems n [] >>= fun first => _) p = _
  rw [bind_of_ok h]
  obtain ⟨rest, flags, nextGroup, names, comment⟩ := q
  obtain rfl | ⟨s, rfl⟩ : rest = [] ∨ ∃ s, rest = ')' :: s := hq
  · rfl
  · rfl

/-- Further alternatives follow behind a bar. -/
theorem readAlternatives_bar {part : Nested Pattern}
    (h : readItems n [] p = .ok (part, plain ('|' :: s) j names)) :
    readAlternatives (n + 1) p =
      (readAlternatives n >>= fun others => Pure.pure (part :: others)) (plain s j names) := by
  change (readItems n [] >>= fun first => _) p = _
  rw [bind_of_ok h]
  rfl

theorem readAlternatives_error (h : readItems n [] p = .error d) :
    readAlternatives (n + 1) p = .error d := by
  change (readItems n [] >>= fun first => _) p = _
  exact bind_of_error h

/-- A group ends with its closing parenthesis. -/
theorem readInside_ok {parts : List (Nested Pattern)}
    (h : readAlternatives n p = .ok (parts, plain (')' :: s) j names)) :
    readInside (n + 1) .initial p = .ok (.join choice parts, plain s j names) := by
  change (readAlternatives n >>= fun alternatives => _) p = _
  rw [bind_of_ok h]
  rfl

theorem readInside_error {f : Flags} (h : readAlternatives n p = .error d) :
    readInside (n + 1) f p = .error d := by
  change (readAlternatives n >>= fun alternatives => _) p = _
  exact bind_of_error h

/-- A group that records nothing. -/
theorem readItems_unnumbered : readItems (n + 2) items (plain ('(' :: '?' :: ':' :: s) j names) =
    (readInside n .initial >>= fun inside => readItems (n + 1) (some (inside.wrap id) :: items))
      (plain s j names) := by
  have hgroup : readGroup (n + 1) (plain ('?' :: ':' :: s) j names) =
      (readInside n .initial >>= fun inside => Pure.pure (some (inside.wrap id))) (plain s j names) := rfl
  change (readGroup (n + 1) >>= fun item => readItems (n + 1) (item :: items))
    (plain ('?' :: ':' :: s) j names) = _
  rw [bind_apply, hgroup, bind_apply, bind_apply]
  cases readInside n .initial (plain s j names) <;> rfl

/-- A group with a name. -/
theorem readItems_named {name : Text} (hname : isGroupName name) (hend : '>' ∉ name) :
    readItems (n + 2) items (plain ('(' :: '?' :: 'P' :: '<' :: (name ++ '>' :: s)) j names) =
      if name ∈ names.map (·.1) then .error .repeatedGroupName
      else (readInside n .initial >>= fun inside =>
        readItems (n + 1) (some (inside.wrap (.group (j + 1))) :: items))
          (plain s (j + 1) ((name, j + 1) :: names)) := by
  have hread := @readGroupName_eq (plain (name ++ '>' :: s) j names) name s rfl hend
  have hgroup : readGroup (n + 1) (plain ('?' :: 'P' :: '<' :: (name ++ '>' :: s)) j names) =
      (readGroupName >>= fun name => MonadState.get >>= fun s =>
        (modify fun p => { p with nextGroup := s.nextGroup + 1, names := (name, s.nextGroup) :: p.names }) >>=
          fun _ => readInside n .initial >>= fun inside =>
            Pure.pure (some (inside.wrap (.group s.nextGroup))))
        (plain (name ++ '>' :: s) j names) := rfl
  change (readGroup (n + 1) >>= fun item => readItems (n + 1) (item :: items))
    (plain ('?' :: 'P' :: '<' :: (name ++ '>' :: s)) j names) = _
  rw [if_pos hname] at hread
  rw [bind_apply, hgroup]
  by_cases hmem : name ∈ names.map (·.1)
  · rw [if_pos (by simpa [plain] using hmem)] at hread
    rw [if_pos hmem, bind_of_error hread]
    rfl
  · rw [if_neg (by simpa [plain] using hmem)] at hread
    rw [if_neg hmem, bind_of_ok hread]
    change ((readInside n .initial >>= fun inside =>
      Pure.pure (some (inside.wrap (Pattern.group (j + 1)))))
        (plain s (j + 1) ((name, j + 1) :: names))).bind _ = _
    rw [bind_apply, bind_apply]
    cases readInside n .initial (plain s (j + 1) ((name, j + 1) :: names)) <;> rfl

variable {part : Nested Pattern}

theorem readRounds_greedy (hc : c ≠ '?') (sign : Char) : readRounds part sign (plain (c :: s) j names) =
    .ok (part.wrap fun p =>
      .rounds p (if sign = '+' then 1 else 0) (if sign = '?' then some 1 else none) true,
      plain (c :: s) j names) := by
  have hafter : Text.after? ['?'] (plain (c :: s) j names).rest = none := by
    simp [plain, Text.after?, List.isPrefixOf?, hc.symm]
  have haccept : accept ['?'] (plain (c :: s) j names) = .ok (false, plain (c :: s) j names) := by
    unfold accept
    rw [bind_of_ok (rfl : Read.rest (plain (c :: s) j names) = .ok (_, plain (c :: s) j names)), hafter]
    rfl
  exact bind_of_ok haccept

theorem readItems_star (hc : c ≠ '?') :
    readItems (n + 1) (some part :: items) (plain ('*' :: c :: s) j names) =
      readItems n (some (part.wrap star) :: items) (plain (c :: s) j names) := by
  change (readRounds part '*' >>= fun item => readItems n (some item :: items)) _ = _
  exact bind_of_ok (readRounds_greedy hc '*')

theorem readItems_opt (hc : c ≠ '?') :
    readItems (n + 1) (some part :: items) (plain ('?' :: c :: s) j names) =
      readItems n (some (part.wrap opt) :: items) (plain (c :: s) j names) := by
  change (readRounds part '?' >>= fun item => readItems n (some item :: items)) _ = _
  exact bind_of_ok (readRounds_greedy hc '?')

end Steps

/-! ## Alternatives -/

namespace Spelled

/-- The text is read as the part, up to the end of the alternative. -/
def Reads (sp : Spelled) (s : Text) : Prop :=
  ∀ {m j c t names}, 4 * s.length + 1 ≤ m → c = '|' ∨ c = ')' → (names.map (·.1)).Nodup →
    readItems m [] (plain (s ++ c :: t) j names) =
      if ((sp.namesFrom j ++ names).map (·.1)).Nodup then
        .ok (sp.part.shift j, plain (c :: t) (j + sp.groups) (sp.namesFrom j ++ names))
      else .error .repeatedGroupName

/-- Parts side by side, with their groups counted on: the parts, and the number of groups and the names
behind them. -/
def place : List Spelled → Nat → List (Text × Nat) → List (Nested Pattern) × Nat × List (Text × Nat)
  | [], j, names => ([], j, names)
  | sp :: sps, j, names =>
    let placed := place sps (j + sp.groups) (sp.namesFrom j ++ names)
    (sp.part.shift j :: placed.1, placed.2)

theorem place_cons (sp : Spelled) (sps : List Spelled) (j : Nat) (names : List (Text × Nat)) :
    place (sp :: sps) j names =
      (sp.part.shift j :: (place sps (j + sp.groups) (sp.namesFrom j ++ names)).1,
        (place sps (j + sp.groups) (sp.namesFrom j ++ names)).2) := rfl

theorem suffix_place (sps : List Spelled) (j : Nat) (names : List (Text × Nat)) :
    names <:+ (place sps j names).2.2 := by
  induction sps generalizing j names with
  | nil => exact List.suffix_rfl
  | cons sp sps ih => exact (List.suffix_append _ _).trans (ih _ _)

/-- Alternatives are read one after the other, up to the end of the group. -/
theorem readAlternatives {sps : List Spelled} {texts : List Text} (h : List.Forall₂ Reads sps texts)
    (hne : texts ≠ []) {m j : Nat} {t : Text} {names : List (Text × Nat)}
    (hm : 4 * (Text.join ['|'] texts).length + 2 ≤ m) (hnames : (names.map (·.1)).Nodup) :
    readAlternatives m (plain (Text.join ['|'] texts ++ ')' :: t) j names) =
      if ((place sps j names).2.2.map (·.1)).Nodup then
        .ok ((place sps j names).1, plain (')' :: t) (place sps j names).2.1 (place sps j names).2.2)
      else .error .repeatedGroupName := by
  induction h generalizing m j names with
  | nil => exact absurd rfl hne
  | @cons sp s sps texts hs hsps ih =>
      obtain ⟨m, rfl⟩ : ∃ n, m = n + 1 := ⟨m - 1, by omega⟩
      have hsuffix := suffix_place sps (j + sp.groups) (sp.namesFrom j ++ names)
      have hkeep := fun h : ((place (sp :: sps) j names).2.2.map (·.1)).Nodup =>
        h.sublist (hsuffix.sublist.map _)
      cases hsps with
      | nil =>
          have hread := hs (m := m) (j := j) (t := t) (by simpa [Text.join] using hm) (.inr rfl) hnames
          by_cases hfirst : ((sp.namesFrom j ++ names).map (·.1)).Nodup
          · rw [if_pos hfirst] at hread
            exact (readAlternatives_ok hread (.inr ⟨t, rfl⟩)).trans (if_pos hfirst).symm
          · rw [if_neg hfirst] at hread
            rw [Text.join, readAlternatives_error hread, if_neg fun h => hfirst (hkeep h)]
      | @cons sp' s' sps texts hs' hsps =>
          have htext : Text.join ['|'] (s :: s' :: texts) ++ ')' :: t =
              s ++ '|' :: (Text.join ['|'] (s' :: texts) ++ ')' :: t) := by
            simp [Text.join]
          have hlength : (Text.join ['|'] (s :: s' :: texts)).length =
              s.length + 1 + (Text.join ['|'] (s' :: texts)).length := by
            simp [Text.join, Nat.add_assoc, Nat.add_comm]
          have hread := hs (m := m) (j := j) (t := Text.join ['|'] (s' :: texts) ++ ')' :: t) (by omega)
            (.inl rfl) hnames
          rw [htext]
          by_cases hfirst : ((sp.namesFrom j ++ names).map (·.1)).Nodup
          · rw [if_pos hfirst] at hread
            rw [readAlternatives_bar hread, bind_apply, ih (by simp) (by omega) hfirst, place_cons sp]
            split <;> rfl
          · rw [if_neg hfirst] at hread
            rw [readAlternatives_error hread, if_neg fun h => hfirst (hkeep h)]

end Spelled

end Crosscheck.Pattern
