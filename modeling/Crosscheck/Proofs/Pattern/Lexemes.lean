import Crosscheck.Proofs.Pattern.Frame
/-!
# Characters, escapes and classes inside a group

None of these has a group in it. What stands for a character or a set of characters by itself stands for the
same between the parentheses of a group.
-/

namespace Crosscheck.Pattern

variable {e : Frame} {p : Progress}

namespace Read

/-! ## Blanks and comments -/

theorem dropVerbose_append {inComment : Bool} {s t : Text} {after : Text}
    (h : dropVerbose inComment s = (t, false)) :
    dropVerbose inComment (s ++ ')' :: after) = (t ++ ')' :: after, false) := by
  induction s generalizing inComment with
  | nil =>
      cases inComment with
      | false =>
          cases h
          rfl
      | true => cases h
  | cons c s ih =>
      cases inComment with
      | true =>
          simp only [List.cons_append, dropVerbose] at h ⊢
          split at h
          · next hc => rw [if_pos hc]; exact ih h
          · next hc => rw [if_neg hc]; exact ih h
      | false =>
          simp only [List.cons_append, dropVerbose] at h ⊢
          split at h
          · next hc => rw [if_pos hc]; exact ih h
          · next hc =>
            rw [if_neg hc]
            split at h
            · next hh => rw [if_pos hh]; exact ih h
            · next hh =>
              rw [if_neg hh]
              cases h
              rfl

/-- Only at the end of the text can a comment be open. -/
theorem dropVerbose_cons {inComment open_ : Bool} {s t : Text} {c : Char}
    (h : dropVerbose inComment s = (c :: t, open_)) : open_ = false := by
  induction s generalizing inComment with
  | nil => cases h
  | cons d s ih =>
      cases inComment with
      | true =>
          rw [dropVerbose] at h
          split at h <;> exact ih h
      | false =>
          rw [dropVerbose] at h
          split at h
          · exact ih h
          · split at h
            · exact ih h
            · cases h
              rfl

theorem length_dropVerbose (inComment : Bool) (s : Text) :
    (dropVerbose inComment s).1.length ≤ s.length := by
  induction s generalizing inComment with
  | nil => exact Nat.le_refl 0
  | cons c s ih =>
      cases inComment with
      | true =>
          rw [dropVerbose]
          split
          · exact Nat.le_succ_of_le (ih false)
          · exact Nat.le_succ_of_le (ih true)
      | false =>
          rw [dropVerbose]
          split
          · exact Nat.le_succ_of_le (ih false)
          · split
            · exact Nat.le_succ_of_le (ih true)
            · exact Nat.le_refl _

/-- What passing over blanks and comments leaves. -/
theorem skipVerbose_eq (p : Progress) : skipVerbose p = .ok ((),
    if p.flags.verbose then
      { p with
        rest := (dropVerbose false p.rest).1
        openComment := p.openComment || (dropVerbose false p.rest).2 }
    else p) := by
  obtain ⟨s, ⟨caseless, multiline, dotAll, swapGreed, unicode, verbose, returns⟩, n, names, o⟩ := p
  cases verbose <;> rfl

theorem keeps_skipVerbose : Keeps e skipVerbose p := by
  refine Follows.of_eq fun a q hrun => ?_
  have hflags : (e.place p).flags = p.flags := rfl
  rw [skipVerbose_eq] at hrun ⊢
  rw [hflags]
  split at hrun
  · next hv =>
    cases hrun
    refine ⟨rfl, rfl, fun hopen => ?_⟩
    obtain ⟨hp, hclosed⟩ := Bool.or_eq_false_iff.mp hopen
    have hdrop : dropVerbose false (e.place p).rest =
        ((dropVerbose false p.rest).1 ++ ')' :: e.behind, false) :=
      dropVerbose_append (Prod.ext rfl hclosed)
    refine ⟨hp, ?_⟩
    rw [if_pos hv, hdrop, hclosed]
    rfl
  · next hv =>
    cases hrun
    rw [if_neg hv]
    exact ⟨rfl, rfl, fun hopen => ⟨hopen, rfl⟩⟩

theorem advance_eq (p : Progress) :
    advance p = skipVerbose { p with rest := p.rest.drop 1 } := rfl

/-- A character is passed over in the frame as it is by itself. -/
theorem keeps_advance (h : p.rest ≠ []) : Keeps e advance p := by
  intro a q hrun
  obtain ⟨c, s, hs⟩ := List.exists_cons_of_ne_nil h
  have hplace : (e.place p).rest.drop 1 = p.rest.drop 1 ++ ')' :: e.behind := by
    simp [Frame.place, hs]
  rw [advance_eq] at hrun ⊢
  rw [hplace]
  exact keeps_skipVerbose a q hrun

theorem length_advance {q : Progress} (h : advance p = .ok ((), q)) :
    q.rest.length ≤ p.rest.length - 1 := by
  have hdrop : (p.rest.drop 1).length ≤ p.rest.length - 1 := by simp
  rw [advance_eq, skipVerbose_eq] at h
  cases h
  split
  · exact Nat.le_trans (length_dropVerbose false (p.rest.drop 1)) hdrop
  · exact hdrop

/-- Passing over a character gives no names, and ends in a comment only at the end of the text. -/
theorem advance_inside {q : Progress} (h : advance p = .ok ((), q)) (hrest : q.rest ≠ []) :
    q.openComment = p.openComment ∧ q.names = p.names ∧ q.nextGroup = p.nextGroup := by
  rw [advance_eq, skipVerbose_eq] at h
  cases h
  split at hrest
  · next hv =>
    obtain ⟨c, t, hdrop⟩ : ∃ c t, (dropVerbose false (p.rest.drop 1)).1 = c :: t :=
      List.exists_cons_of_ne_nil hrest
    have hclosed : (dropVerbose false (p.rest.drop 1)).2 = false :=
      dropVerbose_cons (Prod.ext hdrop rfl)
    rw [if_pos hv]
    refine ⟨?_, rfl, rfl⟩
    change (p.openComment || (dropVerbose false (p.rest.drop 1)).2) = p.openComment
    rw [hclosed, Bool.or_false]
  · next hv =>
    rw [if_neg hv]
    exact ⟨rfl, rfl, rfl⟩

/-! ## Texts that go on in a given way -/

theorem after?_append {lead s after : Text} (h : ')' ∉ lead) :
    Text.after? lead (s ++ ')' :: after) = (Text.after? lead s).map (· ++ ')' :: after) := by
  unfold Text.after?
  induction lead generalizing s with
  | nil => rfl
  | cons c lead ih =>
      rw [List.mem_cons, not_or] at h
      cases s with
      | nil => simp [List.isPrefixOf?, Ne.symm h.1]
      | cons d s =>
          rw [List.cons_append, List.isPrefixOf?, List.isPrefixOf?, ih h.2]
          split <;> rfl

theorem keeps_accept {lead : Text} (h : ')' ∉ lead) : Keeps e (accept lead) p := by
  unfold accept
  refine .rest ?_
  rw [after?_append h]
  cases Text.after? lead p.rest with
  | none => exact .pure false
  | some after => exact .setRest (.pure true)

end Read

open Read

/-! ## Escapes -/

theorem keeps_charOfHex (digits : List Nat) : Keeps e (charOfHex digits) p :=
  .ite (fun _ => .pure _) fun _ => .throw

theorem keeps_readHexDigits (n : Nat) : Keeps e (readHexDigits n) p := by
  induction n generalizing p with
  | zero => exact .pure []
  | succ n ih =>
      refine .rest ?_
      cases hs : p.rest with
      | nil => exact .throw
      | cons c s =>
          simp only [List.cons_append]
          cases hexValue? c with
          | none => exact .throw
          | some d =>
              refine .next (keeps_advance (by simp [hs])) fun _ _ _ => ?_
              exact .next ih fun ds _ _ => .pure (d :: ds)

theorem follows_readBracedHex {n m : Nat} (h : n ≤ m) :
    Copies e (readBracedHex n) (readBracedHex m) p := by
  induction n generalizing m p with
  | zero => exact .throw
  | succ n ih =>
      cases m with
      | zero => omega
      | succ m =>
          refine .rest ?_
          cases hs : p.rest with
          | nil => exact .throw
          | cons c s =>
              have hadvance : Keeps e advance p := keeps_advance (by simp [hs])
              by_cases hc : c = '\x7d'
              · subst hc
                exact .next hadvance fun _ _ _ => .pure []
              · simp only [List.cons_append]
                cases hexValue? c with
                | none => exact .throw
                | some d =>
                    refine .next hadvance fun _ _ _ => ?_
                    exact .next (ih (by omega)) fun ds _ _ => .pure (d :: ds)

theorem keeps_readHex (count : Nat) : Keeps e (readHex count) p := by
  refine .next keeps_skipVerbose fun _ q _ => .rest ?_
  have hplain : Keeps e (do
      let c ← charOfHex (← readHexDigits count)
      if count = 2 ∧ 0x80 ≤ c.toNat ∧ !(← Read.flags).unicode then throw .notUnicode
      return c) q := by
    refine .next (keeps_readHexDigits count) fun _ _ _ => .next (keeps_charOfHex _) fun c _ _ => ?_
    exact .flags (.ite (fun _ => .throw) fun _ => .pure c)
  cases hs : q.rest with
  | nil => exact hplain
  | cons c s =>
      by_cases hc : c = '\x7b'
      · subst hc
        refine .next (keeps_advance (by simp [hs])) fun _ _ _ => ?_
        refine .next (follows_readBracedHex (by simp)) fun ds _ _ => ?_
        exact .ite (fun _ => .throw) fun _ => keeps_charOfHex ds
      · split
        · next heq => exact absurd (List.cons.inj heq).1 hc
        · split
          · next heq => exact absurd (List.cons.inj heq).1 hc
          · exact hplain

theorem follows_readEdgeName {n m : Nat} (h : n ≤ m) :
    Copies e (readEdgeName n) (readEdgeName m) p := by
  induction n generalizing m p with
  | zero => exact .throw
  | succ n ih =>
      cases m with
      | zero => omega
      | succ m =>
          refine .rest ?_
          cases hs : p.rest with
          | nil => exact .throw
          | cons c s =>
              refine .ite (fun _ => ?_) fun _ => .ite (fun _ => ?_) fun _ => .throw
              · refine .next (keeps_advance (by simp [hs])) fun _ _ _ => ?_
                exact .next (ih (by omega)) fun name _ _ => .pure (c :: name)
              · refine .rest ?_
                rw [hs]
                exact .setRest (.pure [])

theorem keeps_signedSet (negated : Bool) (s : CharSet) : Keeps e (signedSet negated s) p := by
  refine .ite (fun _ => .flags ?_) fun _ => .pure _
  exact .ite (fun _ => .pure _) fun _ => .throw

theorem keeps_readEdge : Keeps e readEdge p := by
  refine .rest ?_
  have hplain : Keeps e (Pure.pure (Atom.anchor .wordEdge)) p := .pure _
  cases hs : p.rest with
  | nil => exact hplain
  | cons c s =>
      by_cases hc : c = '\x7b'
      · subst hc
        have hadvance : Keeps e advance p := keeps_advance (by simp [hs])
        refine .get (.next hadvance fun _ q hq => .rest ?_)
        cases hs' : q.rest with
        | nil => exact .throw
        | cons d s' =>
            refine .ite (fun _ => ?_) fun _ => ?_
            · refine .next (follows_readEdgeName (by simp)) fun name _ _ => ?_
              cases namedEdge? name with
              | none => exact .throw
              | some a => exact .pure _
            · -- reading goes back to where it was before the brace
              obtain ⟨hopen, hnames, hnumber⟩ := advance_inside hq (by simp [hs'])
              refine .of_eq fun a r hrun => ?_
              cases hrun
              exact ⟨hnames.symm, hnumber.symm, fun hr => ⟨hopen.trans hr, rfl⟩⟩
      · split
        · next heq => exact absurd (List.cons.inj heq).1 hc
        · split
          · next heq => exact absurd (List.cons.inj heq).1 hc
          · exact hplain

theorem keeps_readEscape : Keeps e readEscape p := by
  refine .rest ?_
  cases hs : p.rest with
  | nil => exact .throw
  | cons c s =>
      refine .setRest (.flags ?_)
      refine .ite (fun _ => .throw) fun _ => ?_
      refine .ite (fun _ => .next (keeps_readHex 2) fun _ _ _ => .pure _) fun _ => ?_
      refine .ite (fun _ => .next (keeps_readHex 4) fun _ _ _ => .pure _) fun _ => ?_
      refine .ite (fun _ => .next (keeps_readHex 8) fun _ _ _ => .pure _) fun _ => ?_
      iterate 3 refine .ite (fun _ => keeps_signedSet _ _) fun _ => ?_
      refine .ite (fun _ => .throw) fun _ => ?_
      iterate 9 refine .ite (fun _ => .pure _) fun _ => ?_
      refine .ite (fun _ => keeps_readEdge) fun _ => ?_
      iterate 3 refine .ite (fun _ => .pure _) fun _ => ?_
      exact .throw

theorem keeps_caselessSet (s : CharSet) : Keeps e (caselessSet s) p := by
  exact .flags (.ite (fun _ => .pure _) fun _ => .pure s)

/-! ## Classes -/

theorem keeps_readClassAtom : Keeps e readClassAtom p := by
  refine .rest ?_
  cases hs : p.rest with
  | nil => exact .throw
  | cons c s =>
      by_cases hc : c = '\\'
      · subst hc
        exact .setRest keeps_readEscape
      · simp only [List.cons_append]
        exact .setRest (.pure _)

theorem keeps_classMember (c : Char) : Keeps e (classMember c) p :=
  .flags (.ite (fun _ => .throw) fun _ => .pure c)

theorem keeps_rangeEnd (a : Atom) : Keeps e (rangeEnd a) p := by
  cases a with
  | char c => exact keeps_classMember c
  | set => exact .throw
  | anchor => exact .throw

theorem keeps_itemSet (a : Atom) : Keeps e (itemSet a) p := by
  cases a with
  | char c => exact .next (keeps_classMember c) fun _ _ _ => .pure _
  | set s => exact .pure s
  | anchor => exact .throw

theorem rest_advance {q : Progress} (h : advance p = .ok ((), q)) : q.rest = ahead p := by
  rw [advance_eq, skipVerbose_eq] at h
  cases h
  rw [ahead]
  split <;> rfl

theorem ahead_place {c : Char} {s : Text} (hp : p.rest ≠ []) (h : ahead p = c :: s) :
    ahead (e.place p) = c :: (s ++ ')' :: e.behind) := by
  obtain ⟨d, t, ht⟩ := List.exists_cons_of_ne_nil hp
  have hflags : (e.place p).flags = p.flags := rfl
  have hplace : (e.place p).rest.drop 1 = p.rest.drop 1 ++ ')' :: e.behind := by
    simp [Frame.place, ht]
  rw [ahead] at h ⊢
  rw [hflags, hplace]
  split at h
  · next hv =>
    have hclosed := dropVerbose_cons (Prod.ext h rfl)
    rw [if_pos hv, dropVerbose_append (Prod.ext h hclosed)]
    rfl
  · next hv =>
    rw [if_neg hv, h]
    rfl

theorem keeps_readClassRange : Keeps e readClassRange p := by
  refine .next keeps_readClassAtom fun first _ _ => .next keeps_skipVerbose fun _ q _ => .rest ?_
  cases hs : q.rest with
  | nil => exact .throw
  | cons c s =>
      have hq : q.rest ≠ [] := by simp [hs]
      cases hahead : ahead q with
      | nil =>
          by_cases hc : c = '-'
          · -- by itself the text would end in the middle of a range
            refine .peek ?_
            rw [hahead, if_neg (by simp [hc])]
            refine .of_fails fun r hrun => ?_
            obtain ⟨_, q', hq', hrun⟩ := exists_of_bind hrun
            obtain ⟨x, q', hx, hrun⟩ := exists_of_bind hrun
            cases hx
            rw [rest_advance hq', hahead] at hrun
            cases hrun
          · refine .peek ?_
            rw [if_pos (.inl hc), if_pos (.inl hc)]
            exact keeps_itemSet first
      | cons d t =>
        refine .peek ?_
        rw [hahead, ahead_place hq hahead]
        refine .ite (fun _ => keeps_itemSet first) fun _ => ?_
        refine .next (keeps_advance hq) fun _ q' hq' => .rest ?_
        rw [rest_advance hq', hahead]
        refine .next keeps_readClassAtom fun last _ _ => ?_
        refine .next (keeps_rangeEnd first) fun low _ _ => .next (keeps_rangeEnd last) fun high _ _ => ?_
        exact .ite (fun _ => .pure _) fun _ => .throw

theorem keeps_closeOperation (pending : Option (SetOperation × Nested CharSet))
    (items : List (Nested CharSet)) : Keeps e (closeOperation pending items) p := by
  cases pending with
  | none => exact .pure _
  | some left =>
      refine .next (keeps_caselessSet _) fun _ _ _ => ?_
      exact .next (keeps_caselessSet _) fun _ _ _ => .pure _

theorem follows_readLeadingHyphens {n m : Nat} (hn : p.rest.length < n) (h : n ≤ m) :
    Copies e (readLeadingHyphens n) (readLeadingHyphens m) p := by
  induction n generalizing m p with
  | zero => omega
  | succ n ih =>
      cases m with
      | zero => omega
      | succ m =>
          refine .rest ?_
          cases hs : p.rest with
          | nil => exact .throw
          | cons c s =>
              by_cases hc : c = '-'
              · subst hc
                refine .next (keeps_advance (by simp [hs])) fun _ q hq => ?_
                have hlength := length_advance hq
                rw [hs] at hn hlength
                simp only [List.length_cons] at hn hlength
                refine .next (ih (by omega) (by omega)) fun _ _ _ => .pure _
              · simp only [List.cons_append, List.cons.injEq, hc, false_and, imp_self, implies_true]
                exact .pure []

theorem head?_behind {c : Char} (h : c ≠ ')') (s after : Text) :
    ((s ++ ')' :: after).head? = some c) = (s.head? = some c) := by
  cases s with
  | nil => simpa using h.symm
  | cons d s => rfl

theorem cons_behind {c : Char} (h : c ≠ ')') {s t after : Text}
    (heq : s ++ ')' :: after = c :: t) : ∃ t', s = c :: t' := by
  cases s with
  | nil => exact absurd (List.cons.inj heq).1.symm h
  | cons d s => exact ⟨s, by rw [(List.cons.inj heq).1]⟩

theorem pair_behind {c : Char} (h : c ≠ ')') {s t after : Text}
    (heq : s ++ ')' :: after = c :: c :: t) : ∃ t', s = c :: c :: t' := by
  obtain ⟨s, rfl⟩ := cons_behind h heq
  obtain ⟨s, rfl⟩ := cons_behind h (List.cons.inj heq).2
  exact ⟨s, rfl⟩

theorem namedClass?_free {name : Text} {members : CharSet} (h : namedClass? name = some members) :
    ')' ∉ name := by
  obtain ⟨entry, hentry, -⟩ := Option.map_eq_some_iff.mp h
  obtain rfl : entry.1.toList = name := by simpa using List.find?_some hentry
  exact (by decide +kernel : ∀ entry ∈ _, ')' ∉ entry.1.toList) entry (List.mem_of_find?_eq_some hentry)

/-- What a named class is behind its opening, and behind the sign of negation if there is one. -/
def classNamed? (negated : Bool) (s : Text) : Option (CharSet × Text) :=
  match Text.after? ":]" (s.drop (s.takeWhile (· ≠ ':')).length),
    namedClass? (s.takeWhile (· ≠ ':')) with
  | some after, some members => some (if negated then .complement members else members, after)
  | _, _ => none

theorem namedClassAt?_eq (s : Text) : namedClassAt? s = (Text.after? "[:" s).bind fun s =>
    match s with
    | '^' :: s => classNamed? true s
    | s => classNamed? false s := by
  rw [namedClassAt?]
  cases Text.after? "[:" s with
  | none => rfl
  | some s =>
      rw [Option.bind_some]
      cases s with
      | nil => rfl
      | cons c s =>
          by_cases hc : c = '^'
          · subst hc
            rfl
          · simp only [List.cons.injEq, hc, false_and, imp_self, implies_true]
            rfl

theorem classNamed?_append (negated : Bool) (s after : Text) : classNamed? negated (s ++ ')' :: after) =
    (classNamed? negated s).map fun found => (found.1, found.2 ++ ')' :: after) := by
  rw [classNamed?, classNamed?, List.takeWhile_append]
  by_cases h : (s.takeWhile (· ≠ ':')).length = s.length
  · -- the name would go on behind the group, and no name does
    have hnone : namedClass? (s ++ (')' :: after).takeWhile (· ≠ ':')) = none := by
      cases hclass : namedClass? (s ++ (')' :: after).takeWhile (· ≠ ':')) with
      | none => rfl
      | some members => exact absurd (by simp) (namedClass?_free hclass)
    rw [if_pos h, hnone, h, List.drop_length]
    split
    · next hmembers => cases hmembers
    · rfl
  · rw [if_neg h, List.drop_append_of_le_length (List.takeWhile_prefix _).length_le, after?_append (by decide)]
    cases Text.after? ":]" (s.drop (s.takeWhile (· ≠ ':')).length) with
    | none => rfl
    | some rest => cases namedClass? (s.takeWhile (· ≠ ':')) <;> rfl

theorem namedClassAt?_append (s after : Text) : namedClassAt? (s ++ ')' :: after) =
    (namedClassAt? s).map fun found => (found.1, found.2 ++ ')' :: after) := by
  rw [namedClassAt?_eq, namedClassAt?_eq, after?_append (by decide)]
  cases Text.after? "[:" s with
  | none => rfl
  | some s =>
      rw [Option.map_some, Option.bind_some, Option.bind_some]
      cases s with
      | nil => exact classNamed?_append false [] after
      | cons c s =>
          by_cases hc : c = '^'
          · subst hc
            exact classNamed?_append true s after
          · simp only [List.cons_append, List.cons.injEq, hc, false_and, imp_self, implies_true]
            exact classNamed?_append false (c :: s) after

/-- What the readers of classes read by themselves, with fuel for `n` steps, they read in the frame. -/
structure ClassesFollow (e : Frame) (n : Nat) : Prop where
  whole : ∀ {p m}, n ≤ m → Copies e (readClass n) (readClass m) p
  items : ∀ {p m pending items}, n ≤ m →
    Copies e (readClassItems n pending items) (readClassItems m pending items) p

namespace ClassesFollow

variable {n m : Nat} (ih : ClassesFollow e n) (hm : n ≤ m)
include ih hm

theorem whole_succ : Copies e (readClass (n + 1)) (readClass (m + 1)) p := by
  refine .next keeps_skipVerbose fun _ q _ => .rest ?_
  simp only [head?_behind (show '^' ≠ ')' by decide)]
  refine .when (fun h => keeps_advance (by rintro hq; simp [hq] at h)) fun q => .rest ?_
  refine .next (follows_readLeadingHyphens (by simp) (by simp)) fun hyphens q _ => .rest ?_
  simp only [head?_behind (show ']' ≠ ')' by decide)]
  refine .when (fun h => keeps_advance (by rintro hq; simp [hq] at h)) fun q => ?_
  refine .next (ih.items hm) fun inside _ _ => ?_
  refine .next (keeps_caselessSet _) fun members _ _ => .flags ?_
  exact .ite (fun _ => .throw) fun _ => .pure _

theorem items_succ {pending : Option (SetOperation × Nested CharSet)} {items : List (Nested CharSet)} :
    Copies e (readClassItems (n + 1) pending items) (readClassItems (m + 1) pending items) p := by
  refine .next keeps_skipVerbose fun _ q _ => .rest ?_
  split
  · exact .throw
  · next s hs =>
    rw [hs]
    exact .setRest (keeps_closeOperation pending items)
  · next s hs =>
    have hnamed := namedClassAt?_append ('[' :: s) e.behind
    rw [List.cons_append] at hnamed
    simp only [hs, List.cons_append, hnamed]
    cases namedClassAt? ('[' :: s) with
    | some found => exact .setRest (ih.items hm)
    | none => exact .setRest (.next (ih.whole hm) fun _ _ _ => ih.items hm)
  · next s hs =>
    rw [hs]
    exact .setRest (.next (keeps_closeOperation _ _) fun _ _ _ => ih.items hm)
  · next s hs =>
    rw [hs]
    exact .setRest (.next (keeps_closeOperation _ _) fun _ _ _ => ih.items hm)
  · next s hs =>
    rw [hs]
    exact .setRest (.next (keeps_closeOperation _ _) fun _ _ _ => ih.items hm)
  · next hnil hclose hopen hand hminus htilde =>
    -- what stands behind does not begin any of the other forms
    split
    · next heq => simp at heq
    · next heq =>
      obtain ⟨t, ht⟩ := cons_behind (by decide) heq
      exact absurd ht (hclose t)
    · next heq =>
      obtain ⟨t, ht⟩ := cons_behind (by decide) heq
      exact absurd ht (hopen t)
    · next heq =>
      obtain ⟨t, ht⟩ := pair_behind (by decide) heq
      exact absurd ht (hand t)
    · next heq =>
      obtain ⟨t, ht⟩ := pair_behind (by decide) heq
      exact absurd ht (hminus t)
    · next heq =>
      obtain ⟨t, ht⟩ := pair_behind (by decide) heq
      exact absurd ht (htilde t)
    · exact .next keeps_readClassRange fun _ _ _ => ih.items hm

end ClassesFollow

theorem classesFollow (e : Frame) (n : Nat) : ClassesFollow e n := by
  induction n with
  | zero => exact ⟨fun _ => .throw, fun _ => .throw⟩
  | succ n ih =>
      have hfuel : ∀ {m}, n + 1 ≤ m → ∃ k, m = k + 1 ∧ n ≤ k := fun {m} hm => ⟨m - 1, by omega, by omega⟩
      refine ⟨fun hm => ?whole, fun hm => ?items⟩ <;> obtain ⟨m, rfl, hn⟩ := hfuel hm
      case whole => exact ih.whole_succ hn
      case items => exact ih.items_succ hn

end Crosscheck.Pattern
