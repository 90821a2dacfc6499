import Crosscheck.Proofs.Pattern.Lexemes
import Mathlib.Data.List.TakeWhile
/-!
# Patterns inside a group

A text that is a pattern by itself, and does not end in a comment, is the same pattern between the
parentheses of a group, with its groups counted on.
-/

namespace Crosscheck.Pattern

/-! ## Chains and choices -/

section

variable {φ : Pattern → Pattern} {P : Pattern → Prop} {ps : List Pattern}

/-- A function that goes through sequences goes through chains. -/
theorem map_chain (hempty : φ .empty = .empty) (hseq : ∀ p q, φ (.seq p q) = .seq (φ p) (φ q))
    (ps : List Pattern) : φ (chain ps) = chain (ps.map φ) := by
  induction ps with
  | nil => exact hempty
  | cons p ps ih =>
      cases ps with
      | nil => rfl
      | cons q ps => exact (hseq p _).trans (congrArg (Pattern.seq (φ p)) ih)

theorem map_choice (hempty : φ .empty = .empty) (halt : ∀ p q, φ (.alt p q) = .alt (φ p) (φ q))
    (ps : List Pattern) : φ (choice ps) = choice (ps.map φ) := by
  induction ps with
  | nil => exact hempty
  | cons p ps ih =>
      cases ps with
      | nil => rfl
      | cons q ps => exact (halt p _).trans (congrArg (Pattern.alt (φ p)) ih)

theorem chain_induction (hempty : P .empty) (hseq : ∀ {p q}, P p → P q → P (.seq p q))
    (h : ∀ p ∈ ps, P p) : P (chain ps) := by
  induction ps with
  | nil => exact hempty
  | cons p ps ih =>
      rw [List.forall_mem_cons] at h
      cases ps with
      | nil => exact h.1
      | cons q ps => exact hseq h.1 (ih h.2)

theorem choice_induction (hempty : P .empty) (halt : ∀ {p q}, P p → P q → P (.alt p q))
    (h : ∀ p ∈ ps, P p) : P (choice ps) := by
  induction ps with
  | nil => exact hempty
  | cons p ps ih =>
      rw [List.forall_mem_cons] at h
      cases ps with
      | nil => exact h.1
      | cons q ps => exact halt h.1 (ih h.2)

end

/-! ## Counting groups on -/

/-- The pattern with every number of a group raised. -/
def shift (j : Nat) : Pattern → Pattern
  | .seq p q => .seq (p.shift j) (q.shift j)
  | .alt p q => .alt (p.shift j) (q.shift j)
  | .group i p => .group (i + j) (p.shift j)
  | .rounds p least most greedy => .rounds (p.shift j) least most greedy
  | p => p

variable {j : Nat}

@[simp]
theorem shift_chain (ps : List Pattern) : (chain ps).shift j = chain (ps.map (shift j)) :=
  map_chain rfl (fun _ _ => rfl) ps

@[simp]
theorem shift_choice (ps : List Pattern) : (choice ps).shift j = choice (ps.map (shift j)) :=
  map_choice rfl (fun _ _ => rfl) ps

/-- A part with every number of a group raised. -/
def Nested.shift (j : Nat) (part : Nested Pattern) : Nested Pattern := ⟨part.value.shift j, part.depth⟩

theorem shift_join (parts : List (Nested Pattern)) :
    Nested.join choice (parts.map (Nested.shift j)) = (Nested.join choice parts).shift j := by
  simp [Nested.join, Nested.shift, Function.comp_def]

theorem shift_sequence (items : List (Option (Nested Pattern))) :
    sequence (items.map (Option.map (Nested.shift j))) = (sequence items).shift j := by
  have hvalues : (items.map (Option.map (Nested.shift j))).reverse.filterMap
      (fun item => item.map (·.value)) =
        (items.reverse.filterMap fun item => item.map (·.value)).map (shift j) := by
    rw [List.map_filterMap, ← List.map_reverse, List.filterMap_map]
    congr 1
    funext item
    cases item <;> rfl
  have hdepths : (items.map (Option.map (Nested.shift j))).map
      (fun item => (item.map (·.depth)).getD 0) = items.map fun item => (item.map (·.depth)).getD 0 := by
    rw [List.map_map]
    congr 1
    funext item
    cases item <;> rfl
  unfold sequence
  rw [hvalues, hdepths]
  simp [Nested.shift]

/-- The groups of the pattern have numbers from `lo` on, below `hi`. -/
def Numbered (lo hi : Nat) : Pattern → Prop
  | .seq p q => p.Numbered lo hi ∧ q.Numbered lo hi
  | .alt p q => p.Numbered lo hi ∧ q.Numbered lo hi
  | .group i p => (lo ≤ i ∧ i < hi) ∧ p.Numbered lo hi
  | .rounds p _ _ _ => p.Numbered lo hi
  | _ => True

variable {lo hi hi' : Nat}

theorem Numbered.mono {p : Pattern} (h : p.Numbered lo hi) (hle : hi ≤ hi') : p.Numbered lo hi' := by
  induction p with
  | seq p q ihp ihq => exact ⟨ihp h.1, ihq h.2⟩
  | alt p q ihp ihq => exact ⟨ihp h.1, ihq h.2⟩
  | group i p ih => exact ⟨⟨h.1.1, Nat.lt_of_lt_of_le h.1.2 hle⟩, ih h.2⟩
  | rounds p least most greedy ih => exact ih h
  | _ => trivial

theorem numbered_chain {ps : List Pattern} (h : ∀ p ∈ ps, p.Numbered lo hi) :
    (chain ps).Numbered lo hi :=
  chain_induction trivial And.intro h

theorem numbered_choice {ps : List Pattern} (h : ∀ p ∈ ps, p.Numbered lo hi) :
    (choice ps).Numbered lo hi :=
  choice_induction trivial And.intro h

theorem numbered_join {parts : List (Nested Pattern)} (h : ∀ part ∈ parts, part.value.Numbered lo hi) :
    (Nested.join choice parts).value.Numbered lo hi :=
  numbered_choice (List.forall_mem_map.mpr h)

theorem numbered_sequence {items : List (Option (Nested Pattern))}
    (h : ∀ part, some part ∈ items → part.value.Numbered lo hi) :
    (sequence items).value.Numbered lo hi := by
  refine numbered_chain fun p hp => ?_
  obtain ⟨item, hitem, hvalue⟩ := List.mem_filterMap.mp hp
  obtain ⟨part, rfl, rfl⟩ := Option.map_eq_some_iff.mp hvalue
  exact h part (List.mem_reverse.mp hitem)

open Read

variable {e : Frame} {p : Progress}

/-! ## Repetitions -/

theorem dropWhile_blank_append (s after : Text) :
    (s ++ ')' :: after).dropWhile Text.isBlank = s.dropWhile Text.isBlank ++ ')' :: after := by
  induction s with
  | nil => rfl
  | cons c s ih =>
      rw [List.cons_append, List.dropWhile, List.dropWhile, ih]
      split <;> rfl

theorem follows_readDigits {n m : Nat} (hn : p.rest.length ≤ n) (h : n ≤ m) :
    Copies e (readCount.readDigits n) (readCount.readDigits m) p := by
  induction n generalizing m p with
  | zero =>
      -- nothing is left, and the parenthesis is no digit
      have hnil : p.rest = [] := List.length_eq_zero_iff.mp (by omega)
      cases m with
      | zero => exact .pure []
      | succ m =>
          refine .rest_right ?_
          rw [hnil]
          exact .pure []
  | succ n ih =>
      cases m with
      | zero => omega
      | succ m =>
          refine .rest ?_
          cases hs : p.rest with
          | nil => exact .pure []
          | cons c s =>
              refine .ite (fun _ => ?_) fun _ => .pure []
              refine .next (keeps_advance (by simp [hs])) fun _ q hq => ?_
              have hlength := length_advance hq
              rw [hs] at hn hlength
              simp only [List.length_cons] at hn hlength
              exact .next (ih (by omega) (by omega)) fun ds _ _ => .pure (c :: ds)

theorem keeps_readCount : Keeps e readCount p := by
  refine .rest ?_
  rw [dropWhile_blank_append]
  refine .setRest (.rest ?_)
  refine .next (follows_readDigits (Nat.le_refl _) (by simp)) fun digits q _ => .rest ?_
  rw [dropWhile_blank_append]
  refine .setRest ?_
  exact .ite (fun _ => .throw) fun _ => .pure _

theorem keeps_greedyUnless (lazy : Bool) : Keeps e (greedyUnless lazy) p := .flags (.pure _)

/-- What a repetition in braces comes to once its counts have been read. -/
def closeCounted (part : Nested Pattern) (least : Nat) (most : Option Nat) : Read (Nested Pattern) := do
  match (← rest) with
  | '\x7d' :: _ => do
    advance
    let lazy ← accept ['?']
    if most.any (· < least) then throw .badCount
    let greedy ← greedyUnless lazy
    return part.wrap fun p => .rounds p least most greedy
  | _ => throw .badCount

theorem follows_closeCounted {part : Nested Pattern} (h : part.value.Numbered lo p.nextGroup)
    (least : Nat) (most : Option Nat) :
    Follows e (fun hi part => part.value.Numbered lo hi) (Nested.shift e.groups)
      (closeCounted part least most) (closeCounted (part.shift e.groups) least most) p := by
  refine .rest ?_
  split
  · next s hs =>
    rw [hs]
    refine .bind (keeps_advance (by simp [hs])) fun _ _ _ hle _ => ?_
    refine .bind (keeps_accept (by decide)) fun lazy _ _ hle' _ => ?_
    refine .ite (fun _ => .throw) fun _ => ?_
    refine .bind (keeps_greedyUnless lazy) fun greedy _ _ hle'' _ => .result _ ?_
    exact h.mono (Nat.le_trans hle (Nat.le_trans hle' hle''))
  · exact .throw

theorem follows_readCounted {part : Nested Pattern} (h : part.value.Numbered lo p.nextGroup) :
    Follows e (fun hi part => part.value.Numbered lo hi) (Nested.shift e.groups)
      (readCounted part) (readCounted (part.shift e.groups)) p := by
  refine .bind keeps_skipVerbose fun _ q _ hle _ => .rest ?_
  cases hs : q.rest with
  | nil => exact .throw
  | cons c s =>
      refine .bind keeps_readCount fun least q _ hle' _ => .rest ?_
      have h := h.mono (Nat.le_trans hle hle')
      dsimp only
      split
      · next s hs =>
        rw [hs]
        refine .bind (keeps_advance (by simp [hs])) fun _ q _ hle _ => .rest ?_
        split
        · exact .throw
        · next s hs =>
          rw [hs]
          exact follows_closeCounted (h.mono hle) least none
        · next hnil hclose =>
          split
          · next heq => simp at heq
          · next heq =>
            obtain ⟨t, ht⟩ := cons_behind (by decide) heq
            exact absurd ht (hclose t)
          · refine .bind keeps_readCount fun most _ _ hle' _ => ?_
            exact follows_closeCounted (h.mono (Nat.le_trans hle hle')) least (some most)
      · next hcomma =>
        split
        · next heq =>
          obtain ⟨t, ht⟩ := cons_behind (by decide) heq
          exact absurd ht (hcomma t)
        · exact follows_closeCounted h least (some least)

theorem follows_readRounds {part : Nested Pattern} (h : part.value.Numbered lo p.nextGroup) (sign : Char) :
    Follows e (fun hi part => part.value.Numbered lo hi) (Nested.shift e.groups)
      (readRounds part sign) (readRounds (part.shift e.groups) sign) p := by
  refine .bind (keeps_accept (by decide)) fun lazy _ _ hle _ => ?_
  refine .bind (keeps_greedyUnless lazy) fun greedy _ _ hle' _ => .result _ ?_
  exact h.mono (Nat.le_trans hle hle')

/-! ## Single characters -/

theorem follows_charPattern (c : Char) : Follows e (fun hi p => p.Numbered lo hi) (shift e.groups)
    (charPattern c) (charPattern c) p := by
  refine .flags (.ite (fun _ => ?_) fun _ => .result _ trivial)
  dsimp only
  refine .ite (fun _ => .result _ trivial) fun _ => ?_
  exact .next (keeps_caselessSet _) fun _ _ _ => .result _ trivial

theorem follows_anchorPattern (a : Anchor) : Follows e (fun hi p => p.Numbered lo hi) (shift e.groups)
    (anchorPattern a) (anchorPattern a) p := .flags (.result _ trivial)

theorem follows_readAtom (h : p.rest ≠ []) : Follows e (fun hi p => p.Numbered lo hi) (shift e.groups)
    readAtom readAtom p := by
  refine .rest ?_
  obtain ⟨c, s, hs⟩ := List.exists_cons_of_ne_nil h
  rw [hs]
  refine .setRest (.flags ?_)
  refine .ite (fun _ => ?_) fun _ => ?_
  · refine .next keeps_readEscape fun a _ _ => ?_
    cases a with
    | char d => exact follows_charPattern d
    | set t => exact .result _ trivial
    | anchor a => exact follows_anchorPattern a
  refine .ite (fun _ => ?_) fun _ => ?_
  · refine .ite (fun _ => .throw) fun _ => ?_
    refine .ite (fun _ => .result _ trivial) fun _ => ?_
    exact .ite (fun _ => .result _ trivial) fun _ => .result _ trivial
  refine .ite (fun _ => follows_anchorPattern _) fun _ => ?_
  refine .ite (fun _ => follows_anchorPattern _) fun _ => ?_
  exact follows_charPattern c

/-! ## Groups -/

theorem isLookAround_append (s after : Text) :
    isLookAround (s ++ ')' :: after) = isLookAround s := by
  have hlead : ∀ lead : Text, ')' ∉ lead →
      lead.isPrefixOf (s ++ ')' :: after) = lead.isPrefixOf s := by
    intro lead h
    have happend := congrArg Option.isSome (@after?_append lead s after h)
    rw [Option.isSome_map] at happend
    rw [← List.isSome_isPrefixOf?_eq_isPrefixOf, ← List.isSome_isPrefixOf?_eq_isPrefixOf]
    exact happend
  unfold isLookAround
  simp only [List.any_cons, List.any_nil]
  rw [hlead _ (by decide), hlead _ (by decide), hlead _ (by decide), hlead _ (by decide)]

theorem readFlagsFrom_append {on dangling : Bool} {seen : List Char} {f f' : Flags} {c : Char} {n : Nat}
    {s t after : Text} (h : readFlagsFrom on seen dangling f s = .ok (f', c, n, t)) :
    readFlagsFrom on seen dangling f (s ++ ')' :: after) = .ok (f', c, n, t ++ ')' :: after) := by
  induction s generalizing on dangling seen f with
  | nil => cases h
  | cons d s ih =>
      rw [List.cons_append, readFlagsFrom]
      rw [readFlagsFrom] at h
      split
      · next hd =>
        rw [if_pos hd] at h
        split
        · next hdangling =>
          rw [if_pos hdangling] at h
          cases h
        · next hdangling =>
          rw [if_neg hdangling] at h
          cases h
          rfl
      · next hd =>
        rw [if_neg hd] at h
        split
        · next hminus =>
          rw [if_pos hminus] at h
          split
          · next hon =>
            rw [if_pos hon] at h
            exact ih h
          · next hon =>
            rw [if_neg hon] at h
            cases h
        · next hminus =>
          rw [if_neg hminus] at h
          split
          · next hseen =>
            rw [if_pos hseen] at h
            cases h
          · next hseen =>
            rw [if_neg hseen] at h
            cases hput : f.put? on d with
            | some f => 
                rw [hput] at h
                exact ih h
            | none =>
                rw [hput] at h
                cases h

/-- Whether a group can have the name. -/
def isGroupName : Text → Bool
  | [] => false
  | c :: cs => isGroupNameChar true c && cs.all (isGroupNameChar false)

theorem readGroupName_eq {name after : Text} (hrest : p.rest = name ++ '>' :: after) (hname : '>' ∉ name) :
    readGroupName p = if isGroupName name then
      if p.names.any (·.1 = name) then .error .repeatedGroupName
      else .ok (name, { p with rest := after })
    else .error .badGroupName := by
  have htake : p.rest.takeWhile (· ≠ '>') = name := by
    rw [hrest, List.takeWhile_append_of_pos fun c hc => by simpa using ne_of_mem_of_not_mem hc hname]
    simp
  have hdrop : p.rest.drop name.length = '>' :: after := by rw [hrest, List.drop_left]
  unfold readGroupName
  rw [bind_of_ok (rfl : Read.rest p = .ok (p.rest, p))]
  dsimp only
  rw [htake, hdrop]
  cases name with
  | nil => rfl
  | cons c cs =>
      change (if isGroupName (c :: cs) then _ else _ : Read Text) p = _
      split
      · change (if p.names.any (·.1 = c :: cs) then _ else _ : Read Text) p = _
        split <;> rfl
      · rfl

/-- Only a name that ends can be read. -/
theorem exists_of_readGroupName {name : Text} {q : Progress} (h : readGroupName p = .ok (name, q)) :
    ∃ after, p.rest = name ++ '>' :: after ∧ '>' ∉ name ∧ isGroupName name ∧
      p.names.any (·.1 = name) = false ∧ q = { p with rest := after } := by
  by_cases hmem : '>' ∈ p.rest
  · obtain ⟨name', after, hrest, hname⟩ := List.eq_append_cons_of_mem hmem
    rw [readGroupName_eq hrest hname] at h
    split at h
    · next hvalid =>
      split at h
      · cases h
      · next hfree =>
        cases h
        exact ⟨after, hrest, hname, hvalid, Bool.eq_false_iff.mpr hfree, rfl⟩
    · cases h
  · have htake : p.rest.takeWhile (· ≠ '>') = p.rest :=
      List.takeWhile_eq_self_iff.mpr fun c hc => by simpa using ne_of_mem_of_not_mem hc hmem
    unfold readGroupName at h
    rw [bind_of_ok (rfl : Read.rest p = .ok (p.rest, p))] at h
    dsimp only at h
    rw [htake, List.drop_length] at h
    cases h

section Numbers

variable {α β : Type} {W : Nat → α → Prop} {f : α → β} {k : Progress → Read α} {k' : Progress → Read β}

/-- A group takes the next number. -/
theorem follows_nextGroup (h : ∀ s q, s.nextGroup = p.nextGroup → q.nextGroup = p.nextGroup + 1 →
      Follows e W f (k s) (k' (e.place s)) q) :
    Follows e W f
      (MonadState.get >>= fun s =>
        (modify fun p => { p with nextGroup := s.nextGroup + 1 }) >>= fun _ => k s)
      (MonadState.get >>= fun s =>
        (modify fun p => { p with nextGroup := s.nextGroup + 1 }) >>= fun _ => k' s) p := by
  intro a r hrun
  obtain ⟨hle, hW, hk⟩ := h p { p with nextGroup := p.nextGroup + 1 } rfl rfl a r hrun
  refine ⟨Nat.le_of_succ_le hle, hW, fun hopen => ?_⟩
  obtain ⟨hclosed, hsuffix, hk⟩ := hk hopen
  refine ⟨hclosed, hsuffix, fun hfresh => ?_⟩
  rw [← hk hfresh]
  change k' (e.place p) { e.place p with nextGroup := p.nextGroup + e.groups + 1 } = _
  rw [Nat.add_right_comm]
  rfl

/-- A named group takes the next number, too, and reading fails if the name has been given before. -/
theorem follows_groupName (h : ∀ s q, s.nextGroup = p.nextGroup → q.nextGroup = p.nextGroup + 1 →
      Follows e W f (k s) (k' (e.place s)) q) :
    Follows e W f
      (readGroupName >>= fun name => MonadState.get >>= fun s =>
        (modify fun p => { p with nextGroup := s.nextGroup + 1, names := (name, s.nextGroup) :: p.names }) >>=
          fun _ => k s)
      (readGroupName >>= fun name => MonadState.get >>= fun s =>
        (modify fun p => { p with nextGroup := s.nextGroup + 1, names := (name, s.nextGroup) :: p.names }) >>=
          fun _ => k' s) p := by
  intro a r hrun
  obtain ⟨name, q, hread, hrun⟩ := exists_of_bind hrun
  obtain ⟨after, hrest, hname, hvalid, hfree, rfl⟩ := exists_of_readGroupName hread
  obtain ⟨hle, hW, hk⟩ := h { p with rest := after } { p with
    rest := after
    nextGroup := p.nextGroup + 1
    names := (name, p.nextGroup) :: p.names } rfl rfl a r hrun
  refine ⟨Nat.le_of_succ_le hle, hW, fun hopen => ?_⟩
  obtain ⟨hclosed, hsuffix, hk⟩ := hk hopen
  refine ⟨hclosed, (List.suffix_cons _ _).trans hsuffix, fun hfresh => ?_⟩
  have hplace : (e.place p).rest = name ++ '>' :: (after ++ ')' :: e.behind) := by
    simp [Frame.place, hrest]
  by_cases hnew : e.Fresh ((name, p.nextGroup) :: p.names)
  · have hread' : readGroupName (e.place p) = .ok (name, e.place { p with rest := after }) := by
      rw [readGroupName_eq hplace hname, if_pos hvalid, if_neg]
      · rfl
      · rw [e.any_names]
        exact (Frame.fresh_cons.mp hnew).1
    rw [bind_of_ok hread', ← hk hnew]
    change k' _ { e.place { p with rest := after } with
      nextGroup := p.nextGroup + e.groups + 1
      names := _ } = _
    rw [Nat.add_right_comm]
    rfl
  · have hread' : readGroupName (e.place p) = .error .repeatedGroupName := by
      rw [readGroupName_eq hplace hname, if_pos hvalid, if_pos]
      rw [e.any_names]
      exact Decidable.not_not.mp fun hfree => hnew (Frame.fresh_cons.mpr ⟨hfree, hfresh⟩)
    rw [bind_of_error hread', if_neg fun h => hnew (h.of_suffix hsuffix)]

end Numbers

/-- What the readers of groups read by themselves, with fuel for `n` steps, they read in the frame. -/
structure GroupsFollow (e : Frame) (n : Nat) : Prop where
  alternatives : ∀ {lo p m}, lo ≤ p.nextGroup → n ≤ m →
    Follows e (fun hi parts => ∀ part ∈ parts, part.value.Numbered lo hi)
      (List.map (Nested.shift e.groups)) (readAlternatives n) (readAlternatives m) p
  items : ∀ {lo p m items}, lo ≤ p.nextGroup → n ≤ m →
    (∀ part, some part ∈ items → part.value.Numbered lo p.nextGroup) →
      Follows e (fun hi part => part.value.Numbered lo hi) (Nested.shift e.groups) (readItems n items)
        (readItems m (items.map (Option.map (Nested.shift e.groups)))) p
  group : ∀ {lo p m}, lo ≤ p.nextGroup → n ≤ m →
    Follows e (fun hi item => ∀ part, item = some part → part.value.Numbered lo hi)
      (Option.map (Nested.shift e.groups)) (readGroup n) (readGroup m) p
  inside : ∀ {lo p m outer}, lo ≤ p.nextGroup → n ≤ m →
    Follows e (fun hi part => part.value.Numbered lo hi) (Nested.shift e.groups) (readInside n outer)
      (readInside m outer) p

namespace GroupsFollow

variable {n m : Nat} {items before : List (Option (Nested Pattern))} {s : Text}
  (ih : GroupsFollow e n) (hlo : lo ≤ p.nextGroup) (hm : n ≤ m)
include ih hlo hm

theorem alternatives_succ : Follows e (fun hi parts => ∀ part ∈ parts, part.value.Numbered lo hi)
    (List.map (Nested.shift e.groups)) (readAlternatives (n + 1)) (readAlternatives (m + 1)) p := by
  have hnone : ∀ part, some part ∈ ([] : List (Option (Nested Pattern))) →
      part.value.Numbered lo p.nextGroup := by simp
  refine .bind (ih.items hlo hm hnone) fun first q _ hle hfirst => .rest ?_
  split
  · next s hs =>
    rw [hs]
    refine .setRest (.bind (ih.alternatives (Nat.le_trans hlo hle) hm)
      fun others _ _ hle' hothers => .result _ ?_)
    exact List.forall_mem_cons.mpr ⟨hfirst.mono hle', hothers⟩
  · next hbar =>
    split
    · next heq =>
      obtain ⟨t, ht⟩ := cons_behind (by decide) heq
      exact absurd ht (hbar t)
    · exact .result _ (by simpa using hfirst)

/-- A sequence goes on behind one more item. -/
theorem items_cons (item : Option (Nested Pattern))
    (hbefore : ∀ part, some part ∈ before → part.value.Numbered lo p.nextGroup)
    (hitem : ∀ part, item = some part → part.value.Numbered lo p.nextGroup) :
    Follows e (fun hi part => part.value.Numbered lo hi) (Nested.shift e.groups) (readItems n (item :: before))
      (readItems m ((item :: before).map (Option.map (Nested.shift e.groups)))) p := by
  refine ih.items hlo hm fun part hpart => ?_
  rcases List.mem_cons.mp hpart with heq | hpart
  · exact hitem part heq.symm
  · exact hbefore part hpart

/-- Where a sign of repetition stands, the sequence goes on if there is an item to repeat. -/
theorem items_sign {read : Nested Pattern → Read (Nested Pattern)}
    (hitems : ∀ part, some part ∈ items → part.value.Numbered lo p.nextGroup)
    (hread : ∀ {part : Nested Pattern}, part.value.Numbered lo p.nextGroup →
      Follows e (fun hi part => part.value.Numbered lo hi) (Nested.shift e.groups) (read part)
        (read (part.shift e.groups)) { p with rest := s }) :
    Follows e (fun hi part => part.value.Numbered lo hi) (Nested.shift e.groups)
      (match items with
        | some part :: before => do
          Read.setRest s
          let item ← read part
          readItems n (some item :: before)
        | _ => throw .nothingToRepeat)
      (match items.map (Option.map (Nested.shift e.groups)) with
        | some part :: before => do
          Read.setRest (s ++ ')' :: e.behind)
          let item ← read part
          readItems m (some item :: before)
        | _ => throw .nothingToRepeat) p := by
  cases items with
  | nil => exact .throw
  | cons item before =>
      cases item with
      | none => exact .throw
      | some part =>
          -- the repetition takes the place of the item
          refine .setRest (.bind (hread (hitems part List.mem_cons_self)) fun item q _ hle hitem => ?_)
          refine ih.items_cons (Nat.le_trans hlo hle) hm (some item)
            (fun part hpart => (hitems part (List.mem_cons_of_mem _ hpart)).mono hle) ?_
          rintro _ ⟨⟩
          exact hitem

theorem items_succ (hitems : ∀ part, some part ∈ items → part.value.Numbered lo p.nextGroup) :
    Follows e (fun hi part => part.value.Numbered lo hi) (Nested.shift e.groups) (readItems (n + 1) items)
      (readItems (m + 1) (items.map (Option.map (Nested.shift e.groups)))) p := by
  refine .bind keeps_skipVerbose fun _ q _ hle _ => .rest ?_
  have hlo := Nat.le_trans hlo hle
  have hitems : ∀ part, some part ∈ items → part.value.Numbered lo q.nextGroup :=
    fun part hpart => (hitems part hpart).mono hle
  have hlater : ∀ {q' : Progress}, q.nextGroup ≤ q'.nextGroup →
      ∀ part, some part ∈ items → part.value.Numbered lo q'.nextGroup :=
    fun hle part hpart => (hitems part hpart).mono hle
  cases hs : q.rest with
  | nil =>
      -- reading stops at the closing parenthesis
      change Follows e _ _ _ (if ')' = ')' ∨ ')' = '|' then _ else _) q
      rw [if_pos (.inl rfl), shift_sequence]
      exact .result _ (numbered_sequence hitems)
  | cons c s =>
      refine .ite (fun _ => ?_) fun _ => ?_
      · rw [shift_sequence]
        exact .result _ (numbered_sequence hitems)
      refine .ite (fun _ => ?_) fun _ => ?_
      · refine .setRest (.bind (ih.group hlo hm) fun item _ _ hle hitem => ?_)
        exact ih.items_cons (Nat.le_trans hlo hle) hm item (hlater hle) hitem
      refine .ite (fun _ => ?_) fun _ => ?_
      · have hlength : s.length ≤ (s ++ ')' :: e.behind).length := by simp
        have hfuel : 2 * s.length + 2 ≤ 2 * (s ++ ')' :: e.behind).length + 2 := by omega
        refine .setRest (.bind ((classesFollow e _).whole hfuel) fun members _ _ hle _ => ?_)
        refine ih.items_cons (Nat.le_trans hlo hle) hm (some ⟨.set members.value, members.depth⟩)
          (hlater hle) ?_
        rintro _ ⟨⟩
        trivial
      refine .ite (fun _ => ?_) fun _ => .ite (fun _ => ?_) fun _ => ?_
      · exact ih.items_sign hlo hm hitems fun hpart => follows_readRounds (p := { q with rest := s }) hpart c
      · exact ih.items_sign hlo hm hitems fun hpart => follows_readCounted (p := { q with rest := s }) hpart
      · refine .bind (@follows_readAtom lo e q (by simp [hs])) fun item _ _ hle hitem => ?_
        refine ih.items_cons (Nat.le_trans hlo hle) hm (some (.flat item)) (hlater hle) ?_
        rintro _ ⟨⟩
        exact hitem

/-- The inside of a group that has taken its number, and the group around it. -/
theorem group_inside {q : Progress} {outer : Flags} (hq : q.nextGroup = p.nextGroup + 1) :
    Follows e (fun hi item => ∀ part, item = some part → part.value.Numbered lo hi)
      (Option.map (Nested.shift e.groups))
      (readInside n outer >>= fun inside => Pure.pure (some (inside.wrap (.group p.nextGroup))))
      (readInside m outer >>= fun inside => Pure.pure (some (inside.wrap (.group (e.place p).nextGroup)))) q := by
  have hlo' : lo ≤ q.nextGroup := by omega
  refine .bind (ih.inside hlo' hm) fun inside r _ hle hinside => .result _ ?_
  rintro _ ⟨⟩
  exact ⟨⟨hlo, by omega⟩, hinside⟩

theorem group_succ : Follows e (fun hi item => ∀ part, item = some part → part.value.Numbered lo hi)
    (Option.map (Nested.shift e.groups)) (readGroup (n + 1)) (readGroup (m + 1)) p := by
  refine .bind keeps_skipVerbose fun _ q _ hle _ => .rest ?_
  have hlo := Nat.le_trans hlo hle
  rw [isLookAround_append]
  refine .ite (fun _ => .throw) fun _ => .flags ?_
  dsimp only
  refine .bind (keeps_accept (by decide)) fun long q _ hle _ => ?_
  have hlo := Nat.le_trans hlo hle
  refine .ite (fun _ => ?_) fun _ => ?_
  · exact follows_groupName fun s q' hs hq => ih.group_inside (p := s) (q := q') (by omega) hm (by omega)
  refine .bind (keeps_accept (by decide)) fun short q _ hle _ => ?_
  have hlo := Nat.le_trans hlo hle
  refine .ite (fun _ => ?_) fun _ => ?_
  · exact follows_groupName fun s q' hs hq => ih.group_inside (p := s) (q := q') (by omega) hm (by omega)
  refine .bind (keeps_accept (by decide)) fun flagged q _ hle _ => ?_
  have hlo := Nat.le_trans hlo hle
  refine .ite (fun _ => ?_) fun _ => ?_
  · refine .rest ?_
    cases hread : readFlagsFrom true [] false _ q.rest with
    | error d => exact .throw
    | ok found =>
        obtain ⟨f, ending, count, after⟩ := found
        rw [readFlagsFrom_append hread]
        refine .setRest (.setFlags (.ite (fun _ => ?_) fun _ => ?_))
        · exact .ite (fun _ => .throw) fun _ => .result none (by simp)
        · refine .bind (ih.inside hlo hm) fun inside r _ hle hinside => .result _ ?_
          rintro _ ⟨⟩
          exact hinside
  · exact follows_nextGroup fun s q' hs hq => ih.group_inside (p := s) (q := q') (by omega) hm (by omega)

theorem inside_succ {outer : Flags} : Follows e (fun hi part => part.value.Numbered lo hi)
    (Nested.shift e.groups) (readInside (n + 1) outer) (readInside (m + 1) outer) p := by
  refine .bind (ih.alternatives hlo hm) fun alternatives q _ hle halternatives => .rest ?_
  split
  · next s hs =>
    rw [hs, shift_join]
    exact .setRest (.setFlags (.result _ (numbered_join halternatives)))
  · exact .throw

end GroupsFollow

/-- Reading follows the fuel, and what is read by itself is read inside a group. -/
theorem groupsFollow (e : Frame) (n : Nat) : GroupsFollow e n := by
  induction n with
  | zero => exact ⟨fun _ _ => .throw, fun _ _ _ => .throw, fun _ _ => .throw, fun _ _ => .throw⟩
  | succ n ih =>
      have hfuel : ∀ {m}, n + 1 ≤ m → ∃ k, m = k + 1 ∧ n ≤ k := fun {m} hm => ⟨m - 1, by omega, by omega⟩
      refine ⟨fun hlo hm => ?alternatives, fun hlo hm hitems => ?items, fun hlo hm => ?group,
        fun hlo hm => ?inside⟩ <;> obtain ⟨m, rfl, hn⟩ := hfuel hm
      case alternatives => exact ih.alternatives_succ hlo hn
      case items => exact ih.items_succ hlo hn hitems
      case group => exact ih.group_succ hlo hn
      case inside => exact ih.inside_succ hlo hn

end Crosscheck.Pattern
