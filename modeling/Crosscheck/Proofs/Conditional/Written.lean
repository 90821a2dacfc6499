import Crosscheck.Conditional.Block
import Crosscheck.Proofs.Pattern.Spelled
import Mathlib.Data.List.Forall2
/-!
# Reading the text of a block

The tags of a block are written into the text of its pattern, between fixed parts. If each of them is a
pattern in its own right, the text as a whole reads as the block with these tags: none of them reaches out
of its place. Reading fails only if a name is given to two groups.
-/

namespace Crosscheck

open Pattern

/-! ## Tags -/

namespace Tag

/-- What the written tag is read as. -/
def spelled? : Tag → Option Spelled
  | .literal s => some ⟨⟨.literal s, Nested.depthOf (s.map fun _ => 0)⟩, [], 0⟩
  | .pattern s => (Spelled.ofWhole? s).map fun sp => { sp with part := sp.part.wrap id }

theorem pattern?_eq (tag : Tag) :
    tag.pattern? = tag.spelled?.map fun sp => (sp.part, sp.names.map (·.1)) := by
  cases tag with
  | literal s => rfl
  | pattern s =>
      rw [pattern?, spelled?, Spelled.ofWhole?]
      cases readWhole s with
      | error d => rfl
      | ok found =>
          obtain ⟨p, progress⟩ := found
          dsimp only
          split <;> rfl

variable {tag : Tag} {sp : Spelled}

theorem numbered (h : tag.spelled? = some sp) : sp.part.value.Numbered 1 (sp.groups + 1) := by
  cases tag with
  | literal s =>
      cases h
      exact numbered_chain (List.forall_mem_map.mpr fun _ _ => trivial)
  | pattern s =>
      obtain ⟨sp, hsp, rfl⟩ := Option.map_eq_some_iff.mp h
      exact (Spelled.readInside hsp).1

/-- A tag is read as what it is by itself, wherever it stands among the alternatives. -/
theorem reads (h : tag.spelled? = some sp) : sp.Reads tag.written := by
  intro m j c t names hm hc hnames
  cases tag with
  | literal s =>
      cases h
      have hlength := length_le_escape s
      change 4 * (escape s).length + 1 ≤ m at hm
      obtain ⟨m, rfl⟩ : ∃ n, m = n + 1 + s.length := ⟨m - 1 - s.length, by omega⟩
      change _ = if (names.map (·.1)).Nodup then _ else _
      rw [written, readItems_escape, readItems_end hc, if_pos hnames, sequence_charItems, Nested.shift,
        shift_literal]
      rfl
  | pattern s =>
      obtain ⟨sp, hsp, rfl⟩ := Option.map_eq_some_iff.mp h
      have htext : written (.pattern s) ++ c :: t = '(' :: '?' :: ':' :: (s ++ ')' :: c :: t) := by
        simp [written]
      have hlength : (written (.pattern s)).length = s.length + 4 := by simp [written]
      obtain ⟨m, rfl⟩ : ∃ n, m = n + 2 := ⟨m - 2, by omega⟩
      have hread := (Spelled.readInside hsp).2 (m := m) (j := j) (t := c :: t) (by omega) hnames
      change _ = if (sp.namesFrom j ++ names |>.map (·.1)).Nodup then _ else _
      rw [htext, readItems_unnumbered, bind_apply, hread]
      split
      · change readItems (m + 1) [some _] (plain (c :: t) _ _) = _
        rw [readItems_end hc]
        rfl
      · rfl

end Tag

namespace Block

/-! ## The parts around the tags -/

section Parts

variable {n j : Nat} {items : List (Option (Nested Pattern))} {c : Char} {s : Text}
  {names : List (Text × Nat)}

def leadName : Text := ['l', 'e', 'a', 'd']
def primaryName : Text := ['p', 'r', 'i', 'm', 'a', 'r', 'y']
def alternateName : Text := ['a', 'l', 't', 'e', 'r', 'n', 'a', 't', 'e']

/-- Blanks as they are written. -/
def blanksSpelling : Text := ['[', ' ', '\\', 't', ']', '*']

/-- A body as it is written, with a name for its group. -/
def bodySpelling (name : Text) : Text :=
  '(' :: '?' :: ':' :: '(' :: '?' :: 'P' :: '<' ::
    (name ++ ['>', '[', '^', '#', ']', '*', ')', '\\', 'n', ')', '?'])

theorem readItems_blanks (hc : c ≠ '?') : readItems (n + 2) items (plain (blanksSpelling ++ c :: s) j names) =
    readItems n (some ⟨blanks, 3⟩ :: items) (plain (c :: s) j names) := by
  have hset : readItems (n + 2) items (plain (blanksSpelling ++ c :: s) j names) =
      readItems (n + 1) (some ⟨spaceOrTab, 2⟩ :: items) (plain ('*' :: c :: s) j names) := rfl
  rw [hset, readItems_star hc]
  rfl

theorem readItems_newline : readItems (n + 1) items (plain ('\\' :: 'n' :: s) j names) =
    readItems n (some (.flat (.char '\n')) :: items) (plain s j names) := rfl

theorem readItems_body {name : Text} (hname : isGroupName name) (hend : '>' ∉ name) (hc : c ≠ '?') :
    readItems (n + 14) items (plain (bodySpelling name ++ c :: s) j names) =
      if name ∈ names.map (·.1) then .error .repeatedGroupName
      else readItems (n + 12) (some ⟨body (j + 1), 6⟩ :: items)
        (plain (c :: s) (j + 1) ((name, j + 1) :: names)) := by
  have htext : bodySpelling name ++ c :: s = '(' :: '?' :: ':' :: '(' :: '?' :: 'P' :: '<' ::
      (name ++ '>' :: '[' :: '^' :: '#' :: ']' :: '*' :: ')' :: '\\' :: 'n' :: ')' :: '?' :: c :: s) := by
    simp [bodySpelling]
  have hset : ∀ s names, readInside (n + 8) .initial
      (plain ('[' :: '^' :: '#' :: ']' :: '*' :: ')' :: s) (j + 1) names) =
        .ok (⟨star (.set (.complement (.one '#'))), 2⟩, plain s (j + 1) names) := fun _ _ => rfl
  have hgroup := @readItems_named (n + 8) j [] ('[' :: '^' :: '#' :: ']' :: '*' :: ')' :: '\\' :: 'n' ::
    ')' :: '?' :: c :: s) names name hname hend
  rw [htext, readItems_unnumbered]
  by_cases hmem : name ∈ names.map (·.1)
  · rw [if_pos hmem] at hgroup ⊢
    exact bind_of_error (readInside_error (readAlternatives_error hgroup))
  · rw [if_neg hmem] at hgroup ⊢
    rw [bind_of_ok (hset _ _)] at hgroup
    rw [bind_of_ok (readInside_ok (readAlternatives_ok hgroup (.inr ⟨_, rfl⟩))), readItems_opt hc]
    rfl

/-- What stands under `#else`, in the order in which it is read. -/
def elseParts (index : Nat) : Pattern :=
  chain [blanks, .char '#', .char 'e', .char 'l', .char 's', .char 'e', blanks, .char '\n', body index]

def elseSpelling : Text :=
  '(' :: '?' :: ':' :: (blanksSpelling ++ (['#', 'e', 'l', 's', 'e'] ++
    (blanksSpelling ++ '\\' :: 'n' :: (bodySpelling alternateName ++ [')', '?']))))

theorem readItems_else (hc : c ≠ '?') :
    readItems (n + 30) items (plain (elseSpelling ++ c :: s) j names) =
      if alternateName ∈ names.map (·.1) then .error .repeatedGroupName
      else readItems (n + 28) (some ⟨opt (elseParts (j + 1)), 9⟩ :: items)
        (plain (c :: s) (j + 1) ((alternateName, j + 1) :: names)) := by
  have htext : elseSpelling ++ c :: s = '(' :: '?' :: ':' :: (blanksSpelling ++ '#' :: (['e', 'l', 's', 'e'] ++
      (blanksSpelling ++ '\\' :: 'n' :: (bodySpelling alternateName ++ ')' :: '?' :: c :: s)))) := by
    simp [elseSpelling]
  have hinside : readItems (n + 26) [] (plain (blanksSpelling ++ '#' :: (['e', 'l', 's', 'e'] ++
      (blanksSpelling ++ '\\' :: 'n' :: (bodySpelling alternateName ++ ')' :: '?' :: c :: s)))) j names) =
        if alternateName ∈ names.map (·.1) then .error .repeatedGroupName
        else .ok (⟨elseParts (j + 1), 7⟩,
          plain (')' :: '?' :: c :: s) (j + 1) ((alternateName, j + 1) :: names)) := by
    refine (readItems_blanks (by decide)).trans ?_
    refine (@readItems_chars (n + 19) _ _ _ _ ['#', 'e', 'l', 's', 'e'] (by decide)).trans ?_
    refine (readItems_blanks (by decide)).trans ?_
    refine readItems_newline.trans ?_
    rw [readItems_body (by decide) (by decide) (by decide)]
    split <;> rfl
  rw [htext, readItems_unnumbered]
  by_cases hmem : alternateName ∈ names.map (·.1)
  · rw [if_pos hmem] at hinside ⊢
    exact bind_of_error (readInside_error (readAlternatives_error hinside))
  · rw [if_neg hmem] at hinside ⊢
    rw [bind_of_ok (readInside_ok (readAlternatives_ok hinside (.inr ⟨_, rfl⟩))), readItems_opt hc]
    rfl

/-- What stands behind the tags. -/
def tailSpelling : Text :=
  blanksSpelling ++ '\\' :: 'n' :: (bodySpelling primaryName ++ (elseSpelling ++
    (blanksSpelling ++ ['#', 'e', 'n', 'd', 'i', 'f'])))

/-- The parts behind the tags, the latest first. -/
def tailItems (groups : Nat) : List (Option (Nested Pattern)) :=
  charItems ['#', 'e', 'n', 'd', 'i', 'f'] ++ [some ⟨blanks, 3⟩, some ⟨opt (elseParts (groups + 2)), 9⟩,
    some ⟨body (groups + 1), 6⟩, some (.flat (.char '\n')), some ⟨blanks, 3⟩]

/-- The names of all groups, once the bodies have theirs. -/
def bodyNames (groups : Nat) (names : List (Text × Nat)) : List (Text × Nat) :=
  (alternateName, groups + 2) :: (primaryName, groups + 1) :: names

theorem nodup_bodyNames : ((bodyNames j names).map (·.1)).Nodup ↔ alternateName ∉ primaryName :: names.map (·.1) ∧
    primaryName ∉ names.map (·.1) ∧ (names.map (·.1)).Nodup := by
  rw [bodyNames, List.map_cons, List.nodup_cons, List.map_cons, List.nodup_cons]

theorem readItems_tail (hnames : (names.map (·.1)).Nodup) :
    readItems (n + 60) items (plain tailSpelling j names) =
      if ((bodyNames j names).map (·.1)).Nodup then
        .ok (sequence (tailItems j ++ items), plain [] (j + 2) (bodyNames j names))
      else .error .repeatedGroupName := by
  refine (@readItems_blanks (n + 58) _ _ _ _ _ (by decide)).trans ?_
  refine readItems_newline.trans ?_
  refine (readItems_body (by decide) (by decide) (by decide)).trans ?_
  by_cases hprimary : primaryName ∈ names.map (·.1)
  · rw [if_pos hprimary, if_neg fun h => (nodup_bodyNames.mp h).2.1 hprimary]
  rw [if_neg hprimary]
  refine (readItems_else (by decide)).trans ?_
  by_cases halternate : alternateName ∈ primaryName :: names.map (·.1)
  · rw [List.map_cons, if_pos halternate, if_neg fun h => (nodup_bodyNames.mp h).1 halternate]
  rw [List.map_cons, if_neg halternate, if_pos (nodup_bodyNames.mpr ⟨halternate, hprimary, hnames⟩)]
  refine (@readItems_blanks (n + 51) _ _ _ _ _ (by decide)).trans ?_
  refine (@readItems_chars (n + 45) _ _ [] _ ['#', 'e', 'n', 'd', 'i', 'f'] (by decide)).trans ?_
  rfl

theorem written_eq (tags : Text) : written tags = '(' :: '?' :: 'P' :: '<' :: (leadName ++ '>' ::
    '\\' :: 'A' :: '|' :: '\\' :: 'n' :: ')' :: (blanksSpelling ++ '#' ::
      (['i', 'f', ' '] ++ '(' :: '?' :: ':' :: (tags ++ ')' :: tailSpelling)))) := by
  have hopening : "(?P<lead>\\A|\\n)[ \\t]*#if (?:".toList = '(' :: '?' :: 'P' :: '<' :: (leadName ++ '>' ::
      '\\' :: 'A' :: '|' :: '\\' :: 'n' :: ')' :: (blanksSpelling ++ ['#', 'i', 'f', ' ', '(', '?', ':'])) := by
    decide +kernel
  have hprimary : ")[ \\t]*\\n(?:(?P<primary>[^#]*)\\n)?".toList =
      ')' :: (blanksSpelling ++ '\\' :: 'n' :: bodySpelling primaryName) := by decide +kernel
  have halternate : "(?:[ \\t]*#else[ \\t]*\\n(?:(?P<alternate>[^#]*)\\n)?)?[ \\t]*#endif".toList =
      elseSpelling ++ (blanksSpelling ++ ['#', 'e', 'n', 'd', 'i', 'f']) := by decide +kernel
  unfold written
  rw [hopening, hprimary, halternate]
  simp [tailSpelling]

end Parts

/-! ## The whole text -/

/-- A block in the order in which its text is read, with the numbers that its groups have then. -/
def readAs (tag : Pattern) (groups : Nat) : Pattern :=
  chain [.group 1 (.alt (.anchor .textStart .word) (.char '\n')), blanks,
    .char '#', .char 'i', .char 'f', .char ' ', tag, blanks, .char '\n', body (groups + 1),
    opt (elseParts (groups + 2)), blanks, .char '#', .char 'e', .char 'n', .char 'd', .char 'i', .char 'f']

variable {sps : List Spelled} {texts : List Text} {n : Nat}

/-- The text of a block is read as the block with its tags. -/
theorem readItems_written (h : List.Forall₂ Spelled.Reads sps texts) (hne : texts ≠ [])
    (hn : 4 * (Text.join ['|'] texts).length ≤ n) {placed : List (Nested Pattern) × Nat × List (Text × Nat)}
    (hplaced : Spelled.place sps 1 [(leadName, 1)] = placed) :
    readItems (n + 90) [] (plain (written (Text.join ['|'] texts)) 0 []) =
      if ((bodyNames placed.2.1 placed.2.2).map (·.1)).Nodup then
        .ok (⟨readAs (choice (placed.1.map (·.value))) placed.2.1,
            max 10 (Nested.depthOf (placed.1.map (·.depth)) + 2)⟩,
          plain [] (placed.2.1 + 2) (bodyNames placed.2.1 placed.2.2))
      else .error .repeatedGroupName := by
  have hlead : (([(leadName, 1)] : List (Text × Nat)).map (·.1)).Nodup := by decide
  have halternatives := Spelled.readAlternatives (m := n + 80) (j := 1) (t := tailSpelling) h hne
    (by omega) hlead
  rw [hplaced] at halternatives
  obtain ⟨parts, groups, names⟩ := placed
  have hanchor : ∀ names s, readInside (n + 88) .initial
      (plain ('\\' :: 'A' :: '|' :: '\\' :: 'n' :: ')' :: s) 1 names) =
        .ok (⟨.alt (.anchor .textStart .word) (.char '\n'), 1⟩, plain s 1 names) := fun _ _ => rfl
  rw [written_eq]
  refine (@readItems_named (n + 88) _ _ _ _ leadName (by decide) (by decide)).trans ?_
  rw [if_neg (by decide), bind_of_ok (hanchor _ _)]
  refine (@readItems_blanks (n + 87) _ _ _ _ _ (by decide)).trans ?_
  refine (@readItems_chars (n + 83) _ _ _ _ ['#', 'i', 'f', ' '] (by decide)).trans ?_
  refine (@readItems_unnumbered (n + 81) _ _ _ _).trans ?_
  dsimp only at halternatives ⊢
  by_cases hnames : (names.map (·.1)).Nodup
  · rw [if_pos hnames] at halternatives
    have hdepth : ∀ d, Nested.depthOf [0, 0, 0, 0, 0, 0, 3, 9, 6, 0, 3, d + 1, 0, 0, 0, 0, 3, 2] =
        max 10 (d + 2) := by
      intro d
      simp only [Nested.depthOf, List.foldl]
      omega
    rw [bind_of_ok (readInside_ok halternatives)]
    refine (@readItems_tail (n + 22) _ _ _ hnames).trans ?_
    refine if_congr Iff.rfl (congrArg (fun part => Except.ok (part, _)) ?_) rfl
    exact congrArg (Nested.mk _) (hdepth _)
  · rw [if_neg hnames] at halternatives
    rw [bind_of_error (readInside_error halternatives), if_neg fun h => hnames (nodup_bodyNames.mp h).2.2]

/-- The alternatives of a block as they are written: its tags, or a single one that matches nothing. -/
def alternatives (tags : TagSet) : List Text :=
  if tags.isEmpty then [['\\', 'b', '\\', 'B']] else tags.map Tag.written

/-- What the alternatives are read as. -/
def spelled? (tags : TagSet) : Option (List Spelled) :=
  if tags.isEmpty then some [⟨⟨never, 1⟩, [], 0⟩] else tags.mapM Tag.spelled?

theorem reads_never : Spelled.Reads ⟨⟨never, 1⟩, [], 0⟩ ['\\', 'b', '\\', 'B'] := by
  intro m j c t names hm hc hnames
  obtain ⟨m, rfl⟩ : ∃ n, m = n + 3 := ⟨m - 3, by simp only [List.length_cons] at hm; omega⟩
  change readItems (m + 1) [some (.flat (.anchor .notWordEdge .word)), some (.flat (.anchor .wordEdge .word))]
    (plain (c :: t) j names) = if (names.map (·.1)).Nodup then _ else _
  rw [readItems_end hc, if_pos hnames]
  rfl

theorem forall₂_of_mapM {α β : Type} {f : α → Option β} {l : List α} {l' : List β} (h : l.mapM f = some l') :
    List.Forall₂ (fun b a => f a = some b) l' l := by
  induction l generalizing l' with
  | nil =>
      cases h
      exact .nil
  | cons a l ih =>
      rw [List.mapM_cons] at h
      obtain ⟨b, hb, h⟩ := Option.bind_eq_some_iff.mp h
      obtain ⟨bs, hbs, h⟩ := Option.bind_eq_some_iff.mp h
      cases h
      exact .cons hb (ih hbs)

variable {tags : TagSet}

theorem reads_alternatives (h : spelled? tags = some sps) :
    List.Forall₂ Spelled.Reads sps (alternatives tags) := by
  cases tags with
  | nil =>
      cases h
      exact .cons reads_never .nil
  | cons tag tags =>
      exact List.forall₂_map_right_iff.mpr ((forall₂_of_mapM h).imp fun _ _ => Tag.reads)

theorem spelling_eq (tags : TagSet) : spelling tags = written (Text.join ['|'] (alternatives tags)) := by
  have hnever : "\\b\\B".toList = ['\\', 'b', '\\', 'B'] := by decide +kernel
  unfold spelling alternatives
  rw [hnever]
  split <;> rfl

theorem length_written (s : Text) : s.length + 22 ≤ (written s).length := by
  rw [written_eq]
  simp only [List.length_cons, List.length_append, tailSpelling, elseSpelling, bodySpelling,
    blanksSpelling, alternateName, primaryName, leadName]
  omega

theorem readWhole_spelling (h : spelled? tags = some sps)
    {placed : List (Nested Pattern) × Nat × List (Text × Nat)}
    (hplaced : Spelled.place sps 1 [(leadName, 1)] = placed) :
    readWhole (spelling tags) =
      if ((bodyNames placed.2.1 placed.2.2).map (·.1)).Nodup then
        if maxDepth < max 10 (Nested.depthOf (placed.1.map (·.depth)) + 2) then .error .tooDeep
        else if maxRoom < (readAs (choice (placed.1.map (·.value))) placed.2.1).room then .error .tooLarge
        else .ok (⟨readAs (choice (placed.1.map (·.value))) placed.2.1,
            max 10 (Nested.depthOf (placed.1.map (·.depth)) + 2)⟩,
          plain [] (placed.2.1 + 2) (bodyNames placed.2.1 placed.2.2))
      else .error .repeatedGroupName := by
  have hne : alternatives tags ≠ [] := by cases tags <;> simp [alternatives]
  have hlength := length_written (Text.join ['|'] (alternatives tags))
  obtain ⟨n, hn⟩ : ∃ n, 4 * (spelling tags).length + 4 = n + 91 := 
    ⟨4 * (spelling tags).length - 87, by rw [spelling_eq]; omega⟩
  have hread := readItems_written (reads_alternatives h) hne (n := n) (by rw [spelling_eq] at hn; omega) hplaced
  rw [← spelling_eq] at hread
  by_cases hnames : ((bodyNames placed.2.1 placed.2.2).map (·.1)).Nodup
  · rw [if_pos hnames] at hread ⊢
    have := readAlternatives_ok hread (.inl rfl)
    rw [readWhole_of_read (by rw [hn]; exact this) rfl]
    rfl
  · rw [if_neg hnames] at hread ⊢
    exact readWhole_of_error (by rw [hn]; exact readAlternatives_error hread)


end Block

end Crosscheck
