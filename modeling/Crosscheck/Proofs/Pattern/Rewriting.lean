import Crosscheck.Pattern.Template
import Crosscheck.Proofs.Pattern.Denotation
import Crosscheck.Proofs.Text.Splice
/-!
# Exchanging matches in one walk

For a pattern that never matches a place alone, exchanging all its matches is one walk over the text: at
each character either a match starts, which is exchanged and passed over, or the character is kept.
-/

namespace Crosscheck.Regex

/-- Every match passes over something. -/
def Consuming (r : Regex) : Prop :=
  ∀ {c m d}, r.matchAt? c = some (m, d) → c.offset < d.offset

/-- The rest of a text with its matches exchanged for what `f` gives, after passing over `skip`
characters of the match found last. -/
def rewrite (r : Regex) (f : Match → Text) : Nat → Option Char → Nat → Text → Text
  | _, _, _, [] => []
  | skip + 1, _, offset, ch :: rest => rewrite r f skip (some ch) (offset + 1) rest
  | 0, previous, offset, ch :: rest =>
    match r.matchAt? ⟨previous, offset, ch :: rest⟩ with
    | some (m, _) => f m ++ rewrite r f (m.stop - m.start - 1) (some ch) (offset + 1) rest
    | none => ch :: rewrite r f 0 (some ch) (offset + 1) rest

/-- The walk from a place on. -/
def rewriteAt (r : Regex) (f : Match → Text) (c : Cursor) : Text :=
  r.rewrite f 0 c.previous c.offset c.rest

variable {r : Regex} {f : Match → Text} {c d : Cursor} {m : Match}

theorem matchAt?_leads (h : r.matchAt? c = some (m, d)) : ∃ u, c.Leads u d ∧
    m.start = c.offset ∧ m.stop = d.offset ∧ m.stop - m.start = u.length := by
  obtain ⟨g, hm, rfl⟩ := matches_of_matchAt? h
  obtain ⟨u, hu⟩ := r.pattern.matches_regular.leads hm
  have ho := hu.offset
  exact ⟨u, hu, rfl, rfl, by simp only; omega⟩

private theorem rewrite_leads {u : Text} (h : c.Leads u d) :
    r.rewrite f u.length c.previous c.offset c.rest = r.rewriteAt f d := by
  induction u generalizing c with
  | nil =>
      obtain rfl := Cursor.leads_nil.mp h
      rfl
  | cons ch u ih =>
      obtain ⟨rest, hr, hu⟩ := Cursor.leads_cons.mp h
      rw [hr]
      exact ih hu

theorem rewriteAt_nil (h : c.rest = []) : r.rewriteAt f c = [] := by
  rw [rewriteAt, h, rewrite]

theorem rewriteAt_some (hr : r.Consuming) (h : r.matchAt? c = some (m, d)) :
    r.rewriteAt f c = f m ++ r.rewriteAt f d := by
  obtain ⟨u, hu, -, -, hlen⟩ := matchAt?_leads h
  have hpos := hr h
  obtain ⟨ch, u, rfl⟩ : ∃ ch v, u = ch :: v :=
    List.exists_cons_of_length_pos (by have := hu.offset; omega)
  obtain ⟨rest, hrest, hu⟩ := Cursor.leads_cons.mp hu
  have hat : r.matchAt? ⟨c.previous, c.offset, ch :: rest⟩ = some (m, d) := by rw [← hrest]; exact h
  rw [rewriteAt, hrest, rewrite, hat]
  simp only [hlen, List.length_cons, Nat.add_sub_cancel]
  rw [rewrite_leads hu]

theorem rewriteAt_none {ch : Char} {rest : Text} (hrest : c.rest = ch :: rest)
    (h : r.matchAt? c = none) :
    r.rewriteAt f c = ch :: r.rewriteAt f ⟨some ch, c.offset + 1, rest⟩ := by
  have hat : r.matchAt? ⟨c.previous, c.offset, ch :: rest⟩ = none := by rw [← hrest]; exact h
  rw [rewriteAt, hrest, rewrite, hat]
  rfl

theorem find?_nil (h : c.rest = []) : r.find? c = r.matchAt? c := by
  obtain ⟨p, n, s⟩ := c
  obtain rfl : s = [] := h
  rfl

theorem find?_cons {ch : Char} {rest : Text} (h : c.rest = ch :: rest) : r.find? c =
    match r.matchAt? c with
    | some found => some found
    | none => r.find? ⟨some ch, c.offset + 1, rest⟩ := by
  obtain ⟨p, n, s⟩ := c
  obtain rfl : s = ch :: rest := h
  rfl

/-- The walk keeps a text in which nothing is found. -/
theorem rewriteAt_of_find?_none (h : r.find? c = none) :
    r.rewriteAt f c = c.rest := by
  obtain ⟨p, n, s⟩ := c
  induction s generalizing p n with
  | nil => rfl
  | cons ch rest ih =>
      rw [find?_cons rfl] at h
      split at h
      · cases h
      · next hm => rw [rewriteAt_none rfl hm, ih _ _ h]

/-- The pattern matches nowhere in the text. -/
def Absent (r : Regex) (s : Text) : Prop :=
  ∀ u c d g, (Cursor.start s).Leads u c → ¬ r.pattern.Matches c [] d g

/-- The first match from a place on begins behind `u`, at `e`, and ends at `d`. -/
structure FirstMatch (r : Regex) (c : Cursor) (u : Text) (e : Cursor) (m : Match) (d : Cursor) : Prop where
  before : c.Leads u e
  matched : r.matchAt? e = some (m, d)
  none_before : ∀ {v x}, c.Leads v x → v.length < u.length → r.matchAt? x = none

/-- What is found is the first match. -/
theorem find?_some (h : r.find? c = some (m, d)) : ∃ u e, r.FirstMatch c u e m d := by
  obtain ⟨p, n, s⟩ := c
  induction s generalizing p n with
  | nil => exact ⟨[], _, .refl _, h, fun _ hv => absurd hv (Nat.not_lt_zero _)⟩
  | cons ch rest ih =>
      rw [find?_cons rfl] at h
      split at h
      · next found hm =>
        obtain rfl := Option.some.inj h
        exact ⟨[], _, .refl _, hm, fun _ hv => absurd hv (Nat.not_lt_zero _)⟩
      · next hm =>
        obtain ⟨u, e, hu, he, hnone⟩ := ih _ _ h
        refine ⟨ch :: u, e, (Cursor.Leads.single rfl).append hu, he, ?_⟩
        intro v x hv hlength
        cases v with
        | nil =>
            obtain rfl := Cursor.leads_nil.mp hv
            exact hm
        | cons ch' v =>
            obtain ⟨_, hrest, hv⟩ := Cursor.leads_cons.mp hv
            obtain ⟨rfl, rfl⟩ := List.cons.inj hrest
            exact hnone hv (Nat.lt_of_succ_lt_succ hlength)

/-- Something is found if there is a match further on. -/
theorem find?_ne_none {u : Text} (h : c.Leads u d) (hd : r.matchAt? d ≠ none) : r.find? c ≠ none := by
  induction u generalizing c with
  | nil =>
      obtain rfl := Cursor.leads_nil.mp h
      cases hrest : d.rest with
      | nil => rwa [find?_nil hrest]
      | cons ch rest =>
          rw [find?_cons hrest]
          obtain ⟨found, hfound⟩ := Option.ne_none_iff_exists'.mp hd
          simp [hfound]
  | cons ch u ih =>
      obtain ⟨rest, hrest, hu⟩ := Cursor.leads_cons.mp h
      rw [find?_cons hrest]
      split
      · exact Option.some_ne_none _
      · exact ih hu

theorem absent_iff {s : Text} : r.Absent s ↔ r.find? (Cursor.start s) = none := by
  constructor
  · intro h
    cases hfind : r.find? (Cursor.start s) with
    | none => rfl
    | some found =>
        obtain ⟨m, d⟩ := found
        obtain ⟨u, e, hu, he, -⟩ := find?_some hfind
        obtain ⟨g, hm, -⟩ := matches_of_matchAt? he
        exact absurd hm (h u e d g hu)
  · intro h u c d g hu hm
    have hmatch := Option.isSome_iff_ne_none.mp (matchAt?_isSome hm)
    exact find?_ne_none hu hmatch h

/-- The walk keeps what it passes over without a match. -/
theorem rewriteAt_leads {u : Text} (h : c.Leads u d)
    (hnone : ∀ {v x}, c.Leads v x → v.length < u.length → r.matchAt? x = none) :
    r.rewriteAt f c = u ++ r.rewriteAt f d := by
  induction u generalizing c with
  | nil =>
      obtain rfl := Cursor.leads_nil.mp h
      rfl
  | cons ch u ih =>
      obtain ⟨rest, hrest, hu⟩ := Cursor.leads_cons.mp h
      have hkept := rewriteAt_none (f := f) hrest (hnone (.refl c) (Nat.zero_lt_succ _))
      rw [hkept, ih hu, List.cons_append]
      intro v x hv hlength
      exact hnone ((Cursor.Leads.single hrest).append hv) (Nat.succ_lt_succ hlength)

/-- The walk keeps what stands before the first match, exchanges the match, and goes on at its end. -/
theorem FirstMatch.rewriteAt {u : Text} {e : Cursor} (h : r.FirstMatch c u e m d) (hr : r.Consuming) :
    r.rewriteAt f c = u ++ (f m ++ r.rewriteAt f d) := by
  rw [rewriteAt_leads h.before h.none_before, rewriteAt_some hr h.matched]

theorem FirstMatch.shorter {u : Text} {e : Cursor} (h : r.FirstMatch c u e m d) (hr : r.Consuming) :
    d.rest.length < c.rest.length := by
  obtain ⟨v, hv, -⟩ := matchAt?_leads h.matched
  have hpos := hr h.matched
  have hoffset := hv.offset
  have hbefore := h.before.length
  have hmatch := hv.length
  omega

/-- What holds of a place from which nothing is found, and of one with the end of its first match, holds of
all places. -/
theorem Consuming.walk_induction (hr : r.Consuming) {motive : Cursor → Prop}
    (absent : ∀ c, r.find? c = none → motive c)
    (found : ∀ {c u e m d}, r.FirstMatch c u e m d → motive d → motive c) (c : Cursor) : motive c := by
  induction hn : c.rest.length using Nat.strongRecOn generalizing c with
  | ind n ih =>
      cases hfind : r.find? c with
      | none => exact absent c hfind
      | some place =>
          obtain ⟨m, d⟩ := place
          obtain ⟨u, e, hfirst⟩ := find?_some hfind
          exact found hfirst (ih d.rest.length (hn ▸ hfirst.shorter hr) d rfl)

/-- What replaces a match, as an edit. -/
def editOf (f : Match → Text) (m : Match) : Edit := ⟨m.start, m.stop, f m⟩

theorem Consuming.isEmpty_eq_false (hr : r.Consuming) (h : r.matchAt? c = some (m, d)) :
    m.isEmpty = false := by
  obtain ⟨u, hu, hstart, hstop, -⟩ := matchAt?_leads h
  have hpos := hr h
  simp only [Match.isEmpty, beq_eq_false_iff_ne, hstart, hstop]
  omega

/-- The matches of a consuming pattern, one at a time. -/
theorem Consuming.matchesFrom_succ (hr : r.Consuming) (bound : Nat) (c : Cursor)
    (last : Option Nat) : r.matchesFrom (bound + 1) c last =
    match r.find? c with
    | none => []
    | some (m, d) => m :: r.matchesFrom bound d (some m.stop) := by
  rw [matchesFrom]
  cases hfind : r.find? c with
  | none => rfl
  | some found =>
      obtain ⟨m, d⟩ := found
      obtain ⟨u, e, -, he, -⟩ := find?_some hfind
      simp only [hr.isEmpty_eq_false he, Bool.false_and, Bool.false_eq_true, if_false]

theorem leftToRight_matchesFrom (hr : r.Consuming) {bound : Nat} (hb : c.rest.length < bound)
    (last : Option Nat) :
    Edit.leftToRight c.offset c.rest ((r.matchesFrom bound c last).map (editOf f)) =
      r.rewriteAt f c := by
  induction bound generalizing c last with
  | zero => omega
  | succ bound ih =>
      rw [hr.matchesFrom_succ]
      cases hfind : r.find? c with
      | none => exact (rewriteAt_of_find?_none hfind).symm
      | some found =>
          obtain ⟨m, d⟩ := found
          obtain ⟨u, e, hfirst⟩ := find?_some hfind
          obtain ⟨v, hv, hstart, hstop, -⟩ := matchAt?_leads hfirst.matched
          have hu := hfirst.before
          have huv := hu.append hv
          have hlen := huv.length
          have ho := huv.offset
          have htake : c.rest.take (m.start - c.offset) = u := by
            rw [hstart, ← hu.textTo]
            rfl
          have hdrop : c.rest.drop (m.stop - c.offset) = d.rest := by
            rw [hstop, ho, Nat.add_sub_cancel_left, huv.rest, List.drop_left]
          have hshorter := hfirst.shorter hr
          have hrec := ih (c := d) (by omega) (some m.stop)
          rw [hfirst.rewriteAt hr, ← hrec, ← hdrop, ← hstop, List.map_cons, Edit.leftToRight]
          simp only [editOf, htake, List.append_assoc]

theorem find?_of_matchAt? (h : r.matchAt? c = some (m, d)) : r.find? c = some (m, d) := by
  cases hrest : c.rest with
  | nil => rwa [find?_nil hrest]
  | cons ch rest => rw [find?_cons hrest, h]

/-- A found match lies at or behind the place from which it was looked for. -/
theorem leads_of_find? (h : r.find? c = some (m, d)) : ∃ u, c.Leads u d ∧
    c.offset ≤ m.start ∧ m.start ≤ m.stop ∧ m.stop = d.offset := by
  obtain ⟨u, e, hu, he, -⟩ := find?_some h
  obtain ⟨v, hv, hstart, hstop, -⟩ := matchAt?_leads he
  have hue := hu.offset
  have hvd := hv.offset
  exact ⟨u ++ v, hu.append hv, by omega, by omega, hstop⟩

/-- The first of the matches from a place on is looked for there, unless that gives the empty match right
at the end of the one before; then it is looked for one character further on. -/
theorem matchesFrom_cases (r : Regex) (bound : Nat) (c : Cursor) (last : Option Nat) :
    r.matchesFrom (bound + 1) c last = [] ∨ ∃ u e m d, c.Leads u e ∧ r.find? e = some (m, d) ∧
      r.matchesFrom (bound + 1) c last = m :: r.matchesFrom bound d (some m.stop) ∧
      (u = [] → ¬ (m.isEmpty ∧ last = some m.stop)) := by
  rw [matchesFrom]
  split
  · exact .inl rfl
  · next m d hfind =>
    split
    · split
      · exact .inl rfl
      · next ch e hnext =>
        have hstep : c.Leads [ch] e := by
          cases hrest : c.rest with
          | nil => simp [Cursor.next?, hrest] at hnext
          | cons ch' rest =>
              simp only [Cursor.next?, hrest, Option.some.injEq, Prod.mk.injEq] at hnext
              obtain ⟨rfl, rfl⟩ := hnext
              exact .single hrest
        split
        · exact .inl rfl
        · next m' d' hfind' => exact .inr ⟨[ch], e, m', d', hstep, hfind', rfl, nofun⟩
    · next hnew => exact .inr ⟨[], c, m, d, .refl c, hfind, rfl, fun _ => by simpa using hnew⟩

/-- Where the matches from a place on can lie. -/
theorem mem_matchesFrom {bound : Nat} {last : Option Nat} (hm : m ∈ r.matchesFrom bound c last) :
    c.offset ≤ m.start ∧ m.start ≤ m.stop ∧ m.stop ≤ c.offset + c.rest.length := by
  induction bound generalizing c last with
  | zero => cases hm
  | succ bound ih =>
      rcases matchesFrom_cases r bound c last with hnone | ⟨u, e, m', d, hu, hfind, hmatches, -⟩
      · rw [hnone] at hm
        cases hm
      · obtain ⟨v, hv, hstart, hle, hstop⟩ := leads_of_find? hfind
        have hue := hu.offset
        have huv := (hu.append hv).offset
        have hlen := (hu.append hv).length
        rw [hmatches] at hm
        rcases List.mem_cons.mp hm with rfl | hm
        · omega
        · have hrest := ih hm
          omega

/-- Each of the matches from a place on is the match at some place ahead. -/
theorem exists_matchAt?_of_mem {bound : Nat} {last : Option Nat} (hm : m ∈ r.matchesFrom bound c last) :
    ∃ u e d, c.Leads u e ∧ r.matchAt? e = some (m, d) := by
  induction bound generalizing c last with
  | zero => cases hm
  | succ bound ih =>
      rcases matchesFrom_cases r bound c last with hnone | ⟨u, e, m', d, hu, hfind, hmatches, -⟩
      · rw [hnone] at hm
        cases hm
      · rw [hmatches] at hm
        rcases List.mem_cons.mp hm with rfl | hm
        · obtain ⟨v, x, hfirst⟩ := find?_some hfind
          exact ⟨u ++ v, x, d, hu.append hfirst.before, hfirst.matched⟩
        · obtain ⟨v, hv, -⟩ := leads_of_find? hfind
          obtain ⟨w, x, d', hw, hmatch⟩ := ih hm
          exact ⟨u ++ v ++ w, x, d', (hu.append hv).append hw, hmatch⟩

/-- No match starts again where the one before it does. -/
theorem start_lt_of_mem {bound : Nat} {n : Match} (h : r.matchAt? c = some (m, d))
    (hn : n ∈ r.matchesFrom bound d (some m.stop)) : m.start < n.start := by
  obtain ⟨w, hw, hstart, hstop, -⟩ := matchAt?_leads h
  have hcd := hw.offset
  cases bound with
  | zero => cases hn
  | succ bound =>
      rcases matchesFrom_cases r bound d (some m.stop) with hnone | ⟨u, e, m', d', hu, hfind, hmatches, hnew⟩
      · rw [hnone] at hn
        cases hn
      · have hbehind : e.offset ≤ n.start := by
          obtain ⟨v, hv, hle, -⟩ := leads_of_find? hfind
          have hed := hv.offset
          rw [hmatches] at hn
          rcases List.mem_cons.mp hn with rfl | hn
          · exact hle
          · have hrest := mem_matchesFrom hn
            omega
        have hde := hu.offset
        by_cases hempty : d.offset = c.offset ∧ u.length = 0
        · -- an empty match would be found again at its own place
          obtain ⟨hsame, hu'⟩ := hempty
          obtain rfl := List.length_eq_zero_iff.mp hu'
          obtain rfl := hw.eq_of_offset hsame
          obtain rfl := Cursor.leads_nil.mp hu
          obtain ⟨rfl, rfl⟩ := Prod.mk.inj (Option.some.inj (hfind.symm.trans (find?_of_matchAt? h)))
          exact absurd ⟨by simp [Match.isEmpty, hstart, hstop], rfl⟩ (hnew rfl)
        · omega

theorem pairwise_matchesFrom (r : Regex) (bound : Nat) (c : Cursor) (last : Option Nat) :
    (r.matchesFrom bound c last).Pairwise fun m n => m.stop ≤ n.start ∧ m.start < n.start := by
  induction bound generalizing c last with
  | zero => exact .nil
  | succ bound ih =>
      rcases matchesFrom_cases r bound c last with hnone | ⟨u, e, m, d, -, hfind, hmatches, -⟩
      · rw [hnone]
        exact .nil
      · rw [hmatches]
        refine List.pairwise_cons.mpr ⟨?_, ih d (some m.stop)⟩
        intro n hn
        obtain ⟨v, x, -, hx, -⟩ := find?_some hfind
        obtain ⟨w, hw, -, hstop, -⟩ := matchAt?_leads hx
        have hbehind := mem_matchesFrom hn
        exact ⟨by omega, start_lt_of_mem hx hn⟩

/-- The edits for all matches of a pattern lie in order. -/
theorem ascending_allMatches (r : Regex) (f : Match → Text) (s : Text) :
    Edit.Ascending s ((r.allMatches s).map (editOf f)) := by
  refine ⟨List.pairwise_map.mpr (pairwise_matchesFrom r _ _ _), ?_⟩
  intro e he
  obtain ⟨m, hm, rfl⟩ := List.mem_map.mp he
  have hplace := mem_matchesFrom hm
  simp only [Cursor.start, editOf] at hplace ⊢
  omega

/-- Splicing in what replaces each match is one walk over the text. -/
theorem applyAll_allMatches (hr : r.Consuming) (f : Match → Text) (s : Text) :
    Edit.applyAll ((r.allMatches s).map (editOf f)) s = r.rewriteAt f (Cursor.start s) := by
  rw [Edit.applyAll_ascending (ascending_allMatches r f s)]
  exact leftToRight_matchesFrom (c := Cursor.start s) hr (Nat.lt_add_of_pos_right Nat.two_pos) none

private theorem exchange_eq_leftToRight (position : Nat) (s : Text) (ms : List Match) :
    Match.exchange position s (ms.map fun m => (m, f m)) =
      Edit.leftToRight position s (ms.map (editOf f)) := by
  induction ms generalizing position s with
  | nil => rfl
  | cons m ms ih => exact congrArg (_ ++ ·) (ih m.stop _)

/-- Replacing all matches by a template is one walk over the text. -/
theorem replaceAll_eq_rewriteAt (hr : r.Consuming) (template s : Text) :
    r.replaceAll template s =
      r.rewriteAt (fun m => Template.expand r m template) (Cursor.start s) := by
  rw [replaceAll, exchange_eq_leftToRight]
  exact leftToRight_matchesFrom (c := Cursor.start s) hr (Nat.lt_add_of_pos_right Nat.two_pos) none

/-- There are no matches where none is found. -/
theorem Consuming.allMatches_eq_nil (hr : r.Consuming) {s : Text} :
    r.allMatches s = [] ↔ r.find? (Cursor.start s) = none := by
  rw [allMatches, hr.matchesFrom_succ]
  cases r.find? (Cursor.start s) <;> simp

/-- What replaces a match is left of it when characters are deleted, at least `k` of them. -/
def Deletes (r : Regex) (f : Match → Text) (k : Nat) : Prop :=
  ∀ {c m d u}, r.matchAt? c = some (m, d) → c.Leads u d →
    (f m).Sublist u ∧ (f m).length + k ≤ u.length

/-- The walk deletes characters, and at least `k` of them if there is a match. -/
theorem rewriteAt_deletes {k : Nat} (hf : r.Deletes f k) (hr : r.Consuming) (c : Cursor) :
    (r.rewriteAt f c).Sublist c.rest ∧
      (r.find? c ≠ none → (r.rewriteAt f c).length + k ≤ c.rest.length) := by
  induction c using hr.walk_induction with
  | absent c hfind =>
      rw [rewriteAt_of_find?_none hfind]
      exact ⟨.refl _, fun h => absurd hfind h⟩
  | @found c u e m d hfirst ih =>
      obtain ⟨v, hv, -⟩ := matchAt?_leads hfirst.matched
      obtain ⟨hdeleted, hless⟩ := hf hfirst.matched hv
      have hd := ih.1
      have hdlength := hd.length_le
      rw [hfirst.rewriteAt hr, hfirst.before.rest, hv.rest]
      refine ⟨(List.Sublist.refl u).append (hdeleted.append hd), fun _ => ?_⟩
      simp only [List.length_append]
      omega

end Crosscheck.Regex
