import Crosscheck.Pattern.Match
import Mathlib.Data.List.Basic
/-!
# What a pattern matches

A relation between the places around a match, with the groups recorded on the way, says what a pattern
matches without saying which match is preferred. The matcher agrees with it: what it finds is related,
and it finds something whenever something is related to a place where the continuation succeeds.
-/

namespace Crosscheck

namespace Cursor

/-- Passing over `u` leads from `c` to `d`. -/
structure Leads (c : Cursor) (u : Text) (d : Cursor) : Prop where
  rest : c.rest = u ++ d.rest
  offset : d.offset = c.offset + u.length
  previous : d.previous = u.getLast?.or c.previous

theorem Leads.refl (c : Cursor) : c.Leads [] c := ⟨rfl, rfl, rfl⟩

theorem leads_nil {c d : Cursor} : c.Leads [] d ↔ d = c := by
  constructor
  · intro h
    obtain ⟨p, n, s⟩ := d
    obtain ⟨p', n', s'⟩ := c
    simpa using And.intro h.previous (And.intro h.offset h.rest.symm)
  · intro hd
    rw [hd]
    exact .refl c

theorem Leads.single {c : Cursor} {ch : Char} {rest : Text} (h : c.rest = ch :: rest) :
    c.Leads [ch] ⟨some ch, c.offset + 1, rest⟩ := ⟨h, rfl, rfl⟩

theorem leads_single {c d : Cursor} {ch : Char} :
    c.Leads [ch] d ↔ ∃ rest, c.rest = ch :: rest ∧ d = ⟨some ch, c.offset + 1, rest⟩ := by
  constructor
  · intro h
    refine ⟨d.rest, h.rest, ?_⟩
    obtain ⟨p, n, s⟩ := d
    simpa using And.intro h.previous h.offset
  · intro hmatch
    obtain ⟨rest, h, rfl⟩ := hmatch
    exact .single h

theorem Leads.append {c d e : Cursor} {u v : Text} (h : c.Leads u d) (h' : d.Leads v e) :
    c.Leads (u ++ v) e := by
  refine ⟨?_, ?_, ?_⟩
  · rw [h.rest, h'.rest, List.append_assoc]
  · rw [h'.offset, h.offset, List.length_append, Nat.add_assoc]
  · rw [h'.previous, h.previous, List.getLast?_append, Option.or_assoc]

/-- A text that stands ahead can be passed over. -/
theorem exists_leads {c : Cursor} {u v : Text} (h : c.rest = u ++ v) :
    ∃ d, c.Leads u d ∧ d.rest = v :=
  ⟨⟨u.getLast?.or c.previous, c.offset + u.length, v⟩, ⟨h, rfl, rfl⟩, rfl⟩

theorem leads_append {c e : Cursor} {u v : Text} :
    c.Leads (u ++ v) e ↔ ∃ d, c.Leads u d ∧ d.Leads v e := by
  constructor
  · intro h
    obtain ⟨d, hd, hr⟩ := exists_leads (by rw [h.rest, List.append_assoc] : c.rest = u ++ (v ++ e.rest))
    refine ⟨d, hd, hr, ?_, ?_⟩
    · rw [h.offset, hd.offset, List.length_append, Nat.add_assoc]
    · rw [h.previous, hd.previous, List.getLast?_append, Option.or_assoc]
  · intro hmatch
    obtain ⟨d, h, h'⟩ := hmatch
    exact h.append h'

theorem leads_cons {c e : Cursor} {ch : Char} {u : Text} :
    c.Leads (ch :: u) e ↔ ∃ rest, c.rest = ch :: rest ∧ Leads ⟨some ch, c.offset + 1, rest⟩ u e := by
  rw [← List.singleton_append, leads_append]
  constructor
  · intro h
    obtain ⟨d, hd, he⟩ := h
    obtain ⟨rest, hrest, rfl⟩ := leads_single.mp hd
    exact ⟨rest, hrest, he⟩
  · intro h
    obtain ⟨rest, hrest, he⟩ := h
    exact ⟨_, .single hrest, he⟩

theorem Leads.textTo {c d : Cursor} {u : Text} (h : c.Leads u d) : c.textTo d = u := by
  rw [Cursor.textTo, h.offset, Nat.add_sub_cancel_left, h.rest, List.take_left]

theorem Leads.text_unique {c d : Cursor} {u v : Text} (h : c.Leads u d) (h' : c.Leads v d) :
    u = v := by
  rw [← h.textTo, h'.textTo]

theorem Leads.length {c d : Cursor} {u : Text} (h : c.Leads u d) :
    c.rest.length = u.length + d.rest.length := by
  rw [h.rest, List.length_append]

/-- A place is left only by passing over something. -/
theorem Leads.eq_of_offset {c d : Cursor} {u : Text} (h : c.Leads u d) (ho : d.offset = c.offset) :
    d = c := by
  have hu : u = [] := List.length_eq_zero_iff.mp (by have := h.offset; omega)
  subst hu
  exact leads_nil.mp h

end Cursor

/-- A relation between a place with groups before it and one with groups after it. -/
abbrev Leg := Cursor → Groups → Cursor → Groups → Prop

/-- `n` legs, one after the other. -/
def Leg.times (leg : Leg) : Nat → Leg
  | 0, c, g, d, h => d = c ∧ h = g
  | n + 1, c, g, e, i => ∃ d h, leg c g d h ∧ leg.times n d h e i

namespace Pattern

/-- The pattern matches from `c` to `d` and takes the groups `g` to `h`. -/
def Matches : Pattern → Leg
  | .empty, c, g, d, h => d = c ∧ h = g
  | .char ch, c, g, d, h => c.Leads [ch] d ∧ h = g
  | .set s, c, g, d, h => (∃ ch, s.has ch ∧ c.Leads [ch] d) ∧ h = g
  | .anchor a letters, c, g, d, h => a.holds letters c.previous c.rest.head? ∧ d = c ∧ h = g
  | .seq p q, c, g, e, i => ∃ d h, p.Matches c g d h ∧ q.Matches d h e i
  | .alt p q, c, g, d, h => p.Matches c g d h ∨ q.Matches c g d h
  | .group i p, c, g, d, h => ∃ h', p.Matches c g d h' ∧ h = (i, c.textTo d) :: h'
  | .rounds p least most _, c, g, d, h =>
    ∃ n, least ≤ n ∧ (∀ m ∈ most, n ≤ max least m) ∧ Leg.times p.Matches n c g d h

end Pattern

namespace Leg

variable {leg : Leg}

theorem times_one {c d : Cursor} {g h : Groups} : leg.times 1 c g d h ↔ leg c g d h := by
  constructor
  · intro hmatch
    obtain ⟨d, h, hl, rfl, rfl⟩ := hmatch
    exact hl
  · intro hl
    exact ⟨d, h, hl, rfl, rfl⟩

theorem times_add {m n : Nat} {c e : Cursor} {g i : Groups} :
    leg.times (m + n) c g e i ↔ ∃ d h, leg.times m c g d h ∧ leg.times n d h e i := by
  induction m generalizing c g with
  | zero =>
      rw [Nat.zero_add]
      constructor
      · intro h
        exact ⟨c, g, ⟨rfl, rfl⟩, h⟩
      · intro hmatch
        obtain ⟨d, h, ⟨rfl, rfl⟩, hn⟩ := hmatch
        exact hn
  | succ m ih =>
      rw [Nat.succ_add]
      constructor
      · intro hmatch
        obtain ⟨d, h, hl, hr⟩ := hmatch
        obtain ⟨d', h', hm, hn⟩ := ih.mp hr
        exact ⟨d', h', ⟨d, h, hl, hm⟩, hn⟩
      · intro hmatch
        obtain ⟨d', h', ⟨d, h, hl, hm⟩, hn⟩ := hmatch
        exact ⟨d, h, hl, ih.mpr ⟨d', h', hm, hn⟩⟩

/-- The relation passes over text and does not look at the groups. -/
structure Regular (leg : Leg) : Prop where
  leads : ∀ {c g d h}, leg c g d h → ∃ u, c.Leads u d
  regroup : ∀ {c g d h}, leg c g d h → ∀ g', ∃ h', leg c g' d h'

/-- A leg that is told by its places alone and keeps the groups. -/
theorem Regular.keeping {near : Cursor → Cursor → Prop} (hnear : ∀ {c d}, near c d → ∃ u, c.Leads u d) :
    Regular fun c g d h => near c d ∧ h = g where
  leads hmatch := hnear hmatch.1
  regroup hmatch g' := ⟨g', hmatch.1, rfl⟩

theorem Regular.stay : Regular fun c g d h => d = c ∧ h = g :=
  .keeping fun hd => ⟨[], Cursor.leads_nil.mpr hd⟩

theorem Regular.andThen {leg' : Leg} (hleg : leg.Regular) (hleg' : leg'.Regular) :
    Regular fun c g e i => ∃ d h, leg c g d h ∧ leg' d h e i where
  leads hmatch := by
    obtain ⟨d, h, hl, hl'⟩ := hmatch
    obtain ⟨u, hu⟩ := hleg.leads hl
    obtain ⟨v, hv⟩ := hleg'.leads hl'
    exact ⟨u ++ v, hu.append hv⟩
  regroup hmatch g' := by
    obtain ⟨d, h, hl, hl'⟩ := hmatch
    obtain ⟨h', hl⟩ := hleg.regroup hl g'
    obtain ⟨i', hl'⟩ := hleg'.regroup hl' h'
    exact ⟨i', d, h', hl, hl'⟩

theorem Regular.times (hleg : leg.Regular) (n : Nat) : (leg.times n).Regular := by
  induction n with
  | zero => exact .stay
  | succ n ih => exact hleg.andThen ih

/-- Legs that pass over nothing can be left out, except that one of them stays if all are such. -/
theorem Regular.skip_empty (hleg : leg.Regular) {n : Nat} {c e : Cursor} {g i : Groups}
    (h : leg.times (n + 1) c g e i) :
    (e = c ∧ ∃ h, leg c g c h) ∨
      ∃ d h m i', leg c g d h ∧ d.offset ≠ c.offset ∧ leg.times m d h e i' := by
  induction n generalizing g i with
  | zero =>
      obtain ⟨d, h, hl, rfl, rfl⟩ := h
      obtain ⟨u, hu⟩ := hleg.leads hl
      by_cases ho : e.offset = c.offset
      · obtain rfl := hu.eq_of_offset ho
        exact .inl ⟨rfl, _, hl⟩
      · exact .inr ⟨_, _, 0, _, hl, ho, rfl, rfl⟩
  | succ n ih =>
      obtain ⟨d, h, hl, hr⟩ := h
      obtain ⟨u, hu⟩ := hleg.leads hl
      by_cases ho : d.offset = c.offset
      · obtain rfl := hu.eq_of_offset ho
        obtain ⟨i', hr'⟩ := (hleg.times (n + 1)).regroup hr g
        exact ih hr'
      · exact .inr ⟨d, h, n + 1, i, hl, ho, hr⟩

end Leg

namespace Pattern

theorem matches_regular (p : Pattern) : (Leg.Regular p.Matches) := by
  induction p with
  | empty => exact .stay
  | char ch => exact .keeping fun hl => ⟨[ch], hl⟩
  | set s => exact .keeping fun ⟨ch, _, hl⟩ => ⟨[ch], hl⟩
  | anchor a letters =>
      refine ⟨?_, ?_⟩
      · intro c g d h hmatch
        exact Leg.Regular.stay.leads hmatch.2
      · intro c g d h hmatch g'
        obtain ⟨ha, hd, _⟩ := hmatch
        exact ⟨g', ha, hd, rfl⟩
  | seq p q ihp ihq => exact ihp.andThen ihq
  | alt p q ihp ihq =>
      refine ⟨?_, ?_⟩
      · intro c g d h hmatch
        rcases hmatch with hp | hq
        · exact ihp.leads hp
        · exact ihq.leads hq
      · intro c g d h hmatch g'
        rcases hmatch with hp | hq
        · exact (ihp.regroup hp g').imp fun _ => .inl
        · exact (ihq.regroup hq g').imp fun _ => .inr
  | group i p ih =>
      refine ⟨?_, ?_⟩
      · intro c g d h hmatch
        obtain ⟨h', hp, _⟩ := hmatch
        exact ih.leads hp
      · intro c g d h hmatch g'
        obtain ⟨h', hp, _⟩ := hmatch
        obtain ⟨h'', hp'⟩ := ih.regroup hp g'
        exact ⟨_, h'', hp', rfl⟩
  | rounds p least most greedy ih =>
      refine ⟨?_, ?_⟩
      · intro c g d h hmatch
        obtain ⟨n, _, _, hn⟩ := hmatch
        exact (ih.times n).leads hn
      · intro c g d h hmatch g'
        obtain ⟨n, hl, hm, hn⟩ := hmatch
        obtain ⟨h', hn'⟩ := (ih.times n).regroup hn g'
        exact ⟨h', n, hl, hm, hn'⟩

end Pattern

/-! ## The matcher finds only what is related -/

namespace Leg

variable {α : Type} {leg : Leg} {step : Pattern.Continuation α → Pattern.Continuation α}
variable {k : Pattern.Continuation α} {c : Cursor} {g : Groups} {r : α}

/-- A success of `step` comes from a leg and a success of what follows. -/
def Sound (leg : Leg) (step : Pattern.Continuation α → Pattern.Continuation α) : Prop :=
  ∀ {k c g r}, step k c g = some r → ∃ d h, leg c g d h ∧ k d h = some r

theorem either_some {greedy : Bool} {first second : Pattern.Continuation α}
    (h : Pattern.either greedy first second c g = some r) :
    first c g = some r ∨ second c g = some r := by
  unfold Pattern.either at h
  cases greedy with
  | true =>
      cases hf : first c g with
      | none => exact .inr (by simpa [hf] using h)
      | some a => exact .inl (by simpa [hf] using h)
  | false =>
      cases hs : second c g with
      | none => exact .inl (by simpa [hs] using h)
      | some a => exact .inr (by simpa [hs] using h)

theorem Sound.exactly (hs : leg.Sound step) {n : Nat} (h : Pattern.exactly step k n c g = some r) :
    ∃ d i, leg.times n c g d i ∧ k d i = some r := by
  induction n generalizing c g with
  | zero => exact ⟨c, g, ⟨rfl, rfl⟩, h⟩
  | succ n ih =>
      obtain ⟨d, i, hl, hk⟩ := hs h
      obtain ⟨e, j, hn, hr⟩ := ih hk
      exact ⟨e, j, ⟨d, i, hl, hn⟩, hr⟩

theorem Sound.upTo (hs : leg.Sound step) {greedy : Bool} {m : Nat}
    (h : Pattern.upTo step greedy k m c g = some r) :
    ∃ n ≤ m, ∃ d i, leg.times n c g d i ∧ k d i = some r := by
  induction m generalizing c g with
  | zero => exact ⟨0, Nat.le_refl 0, c, g, ⟨rfl, rfl⟩, h⟩
  | succ m ih =>
      rcases either_some h with h | h
      · obtain ⟨d, i, hl, hk⟩ := hs h
        obtain ⟨n, hn, e, j, ht, hr⟩ := ih hk
        exact ⟨n + 1, Nat.succ_le_succ hn, e, j, ⟨d, i, hl, ht⟩, hr⟩
      · exact ⟨0, Nat.zero_le _, c, g, ⟨rfl, rfl⟩, h⟩

theorem Sound.further (hs : leg.Sound step) {greedy : Bool} {m : Nat}
    (h : Pattern.further step greedy k m c g = some r) :
    ∃ n d i, leg.times n c g d i ∧ k d i = some r := by
  induction m generalizing c g with
  | zero => exact ⟨0, c, g, ⟨rfl, rfl⟩, h⟩
  | succ m ih =>
      rcases either_some h with h | h
      · obtain ⟨d, i, hl, hk⟩ := hs h
        split at hk
        · cases hk
        · obtain ⟨n, e, j, ht, hr⟩ := ih hk
          exact ⟨n + 1, e, j, ⟨d, i, hl, ht⟩, hr⟩
      · exact ⟨0, c, g, ⟨rfl, rfl⟩, h⟩

theorem Sound.repeated (hs : leg.Sound step) {greedy : Bool}
    (h : Pattern.repeated step greedy k c g = some r) :
    ∃ n d i, leg.times (n + 1) c g d i ∧ k d i = some r := by
  obtain ⟨d, i, hl, hk⟩ := hs h
  split at hk
  · exact ⟨0, d, i, times_one.mpr hl, hk⟩
  · obtain ⟨n, e, j, ht, hr⟩ := hs.further hk
    exact ⟨n, e, j, ⟨d, i, hl, ht⟩, hr⟩

theorem Sound.atLeast (hs : leg.Sound step) {greedy : Bool} {least : Nat}
    (h : Pattern.atLeast step greedy k least c g = some r) :
    ∃ n ≥ least, ∃ d i, leg.times n c g d i ∧ k d i = some r := by
  cases least with
  | zero =>
      rcases either_some h with h | h
      · obtain ⟨n, d, i, ht, hr⟩ := hs.repeated h
        exact ⟨n + 1, Nat.zero_le _, d, i, ht, hr⟩
      · exact ⟨0, Nat.le_refl 0, c, g, ⟨rfl, rfl⟩, h⟩
  | succ least =>
      obtain ⟨d, i, ht, hk⟩ := hs.exactly h
      obtain ⟨n, e, j, ht', hr⟩ := hs.repeated hk
      exact ⟨least + (n + 1), by omega, e, j, times_add.mpr ⟨d, i, ht, ht'⟩, hr⟩

end Leg

namespace Pattern

variable {α : Type}

/-- What the matcher finds is a match followed by a success of the continuation. -/
theorem matches_of_run {p : Pattern} {k : Continuation α} {c : Cursor} {g : Groups} {r : α}
    (h : p.run k c g = some r) : ∃ d i, p.Matches c g d i ∧ k d i = some r := by
  induction p generalizing k c g r with
  | empty => exact ⟨c, g, ⟨rfl, rfl⟩, h⟩
  | char ch =>
      simp only [run] at h
      split at h
      · cases h
      · next d rest hr =>
        split at h
        · next hd =>
          subst hd
          exact ⟨_, g, ⟨.single hr, rfl⟩, h⟩
        · cases h
  | set s =>
      simp only [run] at h
      split at h
      · cases h
      · next d rest hr =>
        split at h
        · next hd => exact ⟨_, g, ⟨⟨d, hd, .single hr⟩, rfl⟩, h⟩
        · cases h
  | anchor a letters =>
      simp only [run] at h
      split at h
      · next ha => exact ⟨c, g, ⟨ha, rfl, rfl⟩, h⟩
      · cases h
  | seq p q ihp ihq =>
      obtain ⟨d, i, hp, hk⟩ := ihp h
      obtain ⟨e, j, hq, hr⟩ := ihq hk
      exact ⟨e, j, ⟨d, i, hp, hq⟩, hr⟩
  | alt p q ihp ihq =>
      simp only [run] at h
      split at h
      · next hp =>
        obtain ⟨d, i, hm, hk⟩ := ihp hp
        exact ⟨d, i, .inl hm, hk.trans h⟩
      · obtain ⟨d, i, hm, hk⟩ := ihq h
        exact ⟨d, i, .inr hm, hk⟩
  | group i p ih =>
      obtain ⟨d, j, hm, hk⟩ := ih h
      exact ⟨d, _, ⟨j, hm, rfl⟩, hk⟩
  | rounds p least most greedy ih =>
      have hs : Leg.Sound p.Matches (p.run (α := α) ·) := fun h => ih h
      cases most with
      | none =>
          obtain ⟨n, hn, d, i, ht, hk⟩ := hs.atLeast h
          exact ⟨d, i, ⟨n, hn, by simp, ht⟩, hk⟩
      | some most =>
          obtain ⟨d, i, ht, hk⟩ := hs.exactly h
          obtain ⟨n, hn, e, j, ht', hr⟩ := hs.upTo hk
          refine ⟨e, j, ⟨least + n, by omega, ?_, Leg.times_add.mpr ⟨d, i, ht, ht'⟩⟩, hr⟩
          intro m hm
          obtain rfl := Option.mem_some.mp hm
          omega

end Pattern

/-! ## The matcher finds something whenever something is related -/

namespace Leg

variable {α : Type} {leg : Leg} {step : Pattern.Continuation α → Pattern.Continuation α}
variable {k : Pattern.Continuation α} {c e : Cursor} {g i : Groups}

/-- `step` succeeds if a leg ends where what follows succeeds, whatever the groups. -/
def Complete (leg : Leg) (step : Pattern.Continuation α → Pattern.Continuation α) : Prop :=
  ∀ {k c g d h}, leg c g d h → (∀ h, (k d h).isSome) → (step k c g).isSome

theorem either_isSome {greedy : Bool} {first second : Pattern.Continuation α}
    (h : (first c g).isSome ∨ (second c g).isSome) :
    (Pattern.either greedy first second c g).isSome := by
  unfold Pattern.either
  cases greedy with
  | true => cases hf : first c g <;> simp_all
  | false => cases hs : second c g <;> simp_all

theorem Complete.exactly (hc : leg.Complete step) {n : Nat} (h : leg.times n c g e i)
    (hleg : leg.Regular) (hk : ∀ i, (k e i).isSome) : (Pattern.exactly step k n c g).isSome := by
  induction n generalizing c g i with
  | zero =>
      obtain ⟨rfl, rfl⟩ := h
      exact hk _
  | succ n ih =>
      obtain ⟨d, j, hl, ht⟩ := h
      refine hc hl fun j' => ?_
      obtain ⟨i', ht'⟩ := (hleg.times n).regroup ht j'
      exact ih ht'

theorem Complete.upTo (hc : leg.Complete step) {greedy : Bool} {n m : Nat} (hn : n ≤ m)
    (h : leg.times n c g e i) (hleg : leg.Regular) (hk : ∀ i, (k e i).isSome) :
    (Pattern.upTo step greedy k m c g).isSome := by
  induction m generalizing n c g i with
  | zero =>
      obtain rfl := Nat.le_zero.mp hn
      obtain ⟨rfl, rfl⟩ := h
      exact hk _
  | succ m ih =>
      apply either_isSome
      cases n with
      | zero =>
          obtain ⟨rfl, rfl⟩ := h
          exact .inr (hk _)
      | succ n =>
          obtain ⟨d, j, hl, ht⟩ := h
          refine .inl (hc hl fun j' => ?_)
          obtain ⟨i', ht'⟩ := (hleg.times n).regroup ht j'
          exact ih (Nat.le_of_succ_le_succ hn) ht'

/-- The characters passed over bound the rounds that pass over something; the others are left out. -/
theorem Complete.further (hc : leg.Complete step) {greedy : Bool} {n m : Nat}
    (h : leg.times n c g e i) (hleg : leg.Regular) (hm : c.rest.length ≤ e.rest.length + m)
    (hk : ∀ i, (k e i).isSome) : (Pattern.further step greedy k m c g).isSome := by
  induction n generalizing c g i m with
  | zero =>
      obtain ⟨rfl, rfl⟩ := h
      cases m with
      | zero => exact hk _
      | succ m => exact either_isSome (.inr (hk _))
  | succ n ih =>
      obtain ⟨d, j, hl, ht⟩ := h
      obtain ⟨u, hu⟩ := hleg.leads hl
      obtain ⟨v, hv⟩ := (hleg.times n).leads ht
      by_cases ho : d.offset = c.offset
      · obtain rfl := hu.eq_of_offset ho
        obtain ⟨i', ht'⟩ := (hleg.times n).regroup ht g
        exact ih ht' hm
      · have hpos := hu.offset
        have hlen := hu.length
        have hlen' := hv.length
        cases m with
        | zero => omega
        | succ m =>
            refine either_isSome (.inl (hc hl fun j' => ?_))
            obtain ⟨i', ht'⟩ := (hleg.times n).regroup ht j'
            rw [if_neg ho]
            exact ih ht' (by omega)

theorem Complete.repeated (hc : leg.Complete step) {greedy : Bool} {n : Nat}
    (h : leg.times (n + 1) c g e i) (hleg : leg.Regular) (hk : ∀ i, (k e i).isSome) :
    (Pattern.repeated step greedy k c g).isSome := by
  rcases hleg.skip_empty h with ⟨rfl, j, hl⟩ | ⟨d, j, m, i', hl, ho, ht⟩
  · refine hc hl fun j' => ?_
    rw [if_pos rfl]
    exact hk j'
  · refine hc hl fun j' => ?_
    obtain ⟨i'', ht'⟩ := (hleg.times m).regroup ht j'
    rw [if_neg ho]
    exact hc.further ht' hleg (by omega) hk

theorem Complete.atLeast (hc : leg.Complete step) {greedy : Bool} {least n : Nat} (hn : least ≤ n)
    (h : leg.times n c g e i) (hleg : leg.Regular) (hk : ∀ i, (k e i).isSome) :
    (Pattern.atLeast step greedy k least c g).isSome := by
  cases least with
  | zero =>
      apply either_isSome
      cases n with
      | zero =>
          obtain ⟨rfl, rfl⟩ := h
          exact .inr (hk _)
      | succ n => exact .inl (hc.repeated h hleg hk)
  | succ least =>
      obtain ⟨n, rfl⟩ := Nat.exists_eq_add_of_le hn
      rw [show least + 1 + n = least + (n + 1) by omega] at h
      obtain ⟨d, j, ht, ht'⟩ := times_add.mp h
      refine hc.exactly ht hleg fun j' => ?_
      obtain ⟨i', ht''⟩ := (hleg.times (n + 1)).regroup ht' j'
      exact hc.repeated ht'' hleg hk

end Leg

namespace Pattern

variable {α : Type}

/-- The matcher finds something if a match ends where the continuation succeeds. -/
theorem run_isSome {p : Pattern} {k : Continuation α} {c d : Cursor} {g h : Groups}
    (hm : p.Matches c g d h) (hk : ∀ h, (k d h).isSome) : (p.run k c g).isSome := by
  induction p generalizing k c d g h with
  | empty =>
      obtain ⟨rfl, rfl⟩ := hm
      exact hk _
  | char ch =>
      obtain ⟨hl, rfl⟩ := hm
      obtain ⟨rest, hr, rfl⟩ := Cursor.leads_single.mp hl
      simpa [run, hr] using hk h
  | set s =>
      obtain ⟨⟨ch, hs, hl⟩, rfl⟩ := hm
      obtain ⟨rest, hr, rfl⟩ := Cursor.leads_single.mp hl
      simpa [run, hr, hs] using hk h
  | anchor a letters =>
      obtain ⟨ha, rfl, rfl⟩ := hm
      simpa [run, ha] using hk h
  | seq p q ihp ihq =>
      obtain ⟨e, i, hp, hq⟩ := hm
      refine ihp hp fun i' => ?_
      obtain ⟨h', hq'⟩ := q.matches_regular.regroup hq i'
      exact ihq hq' hk
  | alt p q ihp ihq =>
      simp only [run]
      rcases hm with hp | hq
      · obtain ⟨a, ha⟩ := Option.isSome_iff_exists.mp (ihp hp hk)
        simp [ha]
      · have hq' := ihq hq hk
        cases hp : p.run k c g with
        | none => exact hq'
        | some a => rfl
  | group i p ih =>
      obtain ⟨h', hp, rfl⟩ := hm
      exact ih hp fun _ => hk _
  | rounds p least most greedy ih =>
      obtain ⟨n, hn, hmost, ht⟩ := hm
      have hc : Leg.Complete p.Matches (p.run (α := α) ·) := fun hm hk => ih hm hk
      cases most with
      | none => exact hc.atLeast hn ht p.matches_regular hk
      | some most =>
          have hle := hmost most rfl
          obtain ⟨m, rfl⟩ := Nat.exists_eq_add_of_le hn
          obtain ⟨e, i, ht, ht'⟩ := Leg.times_add.mp ht
          refine hc.exactly ht p.matches_regular fun i' => ?_
          obtain ⟨h', ht''⟩ := (p.matches_regular.times m).regroup ht' i'
          exact hc.upTo (by omega) ht'' p.matches_regular hk

end Pattern

namespace Regex

variable {r : Regex} {c d : Cursor} {m : Match}

theorem matches_of_matchAt? (h : r.matchAt? c = some (m, d)) :
    ∃ g, r.pattern.Matches c [] d g ∧ m = ⟨c.offset, d.offset, (0, c.textTo d) :: g⟩ := by
  obtain ⟨e, g, hm, he⟩ := Pattern.matches_of_run h
  obtain ⟨rfl, rfl⟩ := Prod.mk.inj (Option.some.inj he)
  exact ⟨g, hm, rfl⟩

theorem matchAt?_isSome {g : Groups} (h : r.pattern.Matches c [] d g) : (r.matchAt? c).isSome :=
  Pattern.run_isSome h fun _ => rfl

end Regex

end Crosscheck
