import Crosscheck.Proofs.Text.Replacement
import Mathlib.Data.List.Infix
/-!
# Occurrences that replacing does not bring about

Where no end of one text agrees with the start of another, in either order, they stand beside each other in
any text. A replacement that is so apart from what is looked for brings no occurrence of it about.
-/

namespace Crosscheck.Text

variable {part by_ w v p q u r s : Text}

/-- No end of `w` agrees with `v` as far as both go. -/
def Avoids (w v : Text) : Prop := ∀ n ∈ w.tails, n ≠ [] → ¬ n <+: v ∧ ¬ v <+: n

instance (w v : Text) : Decidable (Avoids w v) :=
  inferInstanceAs (Decidable (∀ n ∈ w.tails, n ≠ [] → ¬ n <+: v ∧ ¬ v <+: n))

theorem Avoids.of_head {ch : Char} (hv : v.head? = some ch) (hw : ch ∉ w) : w.Avoids v := by
  obtain ⟨v, rfl⟩ := List.head?_eq_some_iff.mp hv
  intro n hn hne
  rw [List.mem_tails] at hn
  refine ⟨?_, ?_⟩
  · intro h
    obtain ⟨d, n, rfl⟩ := List.exists_cons_of_ne_nil hne
    obtain ⟨rfl, -⟩ := List.cons_prefix_cons.mp h
    exact hw (hn.mem List.mem_cons_self)
  · intro h
    exact hw (hn.mem (h.mem List.mem_cons_self))

theorem Avoids.of_last {ch d : Char} (hv : v.getLast? = some ch) (hw : ch ∉ w) (hd : d ∈ w)
    (hnone : d ∉ v) : v.Avoids w := by
  obtain ⟨v, rfl⟩ := List.getLast?_eq_some_iff.mp hv
  intro n hn hne
  rw [List.mem_tails] at hn
  refine ⟨?_, ?_⟩
  · intro h
    have hlast : ch ∈ n := by
      have hsame : n.getLast hne = ch := by
        rw [hn.getLast hne, List.getLast_append_singleton]
      exact hsame ▸ List.getLast_mem hne
    exact hw (h.mem hlast)
  · intro h
    exact hnone (hn.mem (h.mem hd))

/-- What the start of a text avoids, the whole text avoids. -/
theorem Avoids.of_prefix (h : w.Avoids u) (hu : u <+: v) : w.Avoids v := by
  intro n hn hne
  obtain ⟨hshort, hlong⟩ := h n hn hne
  refine ⟨fun hnv => ?_, fun hvn => hlong (hu.trans hvn)⟩
  rcases List.prefix_or_prefix_of_prefix hnv hu with hnu | hun
  · exact hshort hnu
  · exact hlong hun

theorem Avoids.before (h : w.Avoids v) (hs : w ++ q = u ++ (v ++ r)) : ∃ k, u = w ++ k := by
  rcases List.append_eq_append_iff.mp hs with ⟨k, hu, -⟩ | ⟨n, hw, hq⟩
  · exact ⟨k, hu⟩
  · by_cases hne : n = []
    · exact ⟨[], by rw [hw, hne, List.append_nil, List.append_nil]⟩
    · obtain ⟨hshort, hlong⟩ := h n ((List.mem_tails n w).mpr ⟨u, hw.symm⟩) hne
      rcases List.prefix_or_prefix_of_prefix ⟨q, hq.symm⟩ (List.prefix_append v r) with hn | hv
      · exact absurd hn hshort
      · exact absurd hv hlong

/-- Of two texts that avoid each other, one stands before the other or after it. -/
theorem Avoids.beside (hwv : w.Avoids v) (hvw : v.Avoids w) (hs : p ++ (w ++ q) = u ++ (v ++ r)) :
    (∃ k, u = p ++ (w ++ k)) ∨ ∃ k, p = u ++ (v ++ k) ∧ r = k ++ (w ++ q) := by
  rcases List.append_eq_append_iff.mp hs with ⟨n, hu, hw⟩ | ⟨n, hp, hv⟩
  · obtain ⟨k, rfl⟩ := hwv.before hw
    exact .inl ⟨k, hu⟩
  · obtain ⟨k, rfl⟩ := hvw.before hv
    rw [List.append_assoc] at hv
    exact .inr ⟨k, hp, List.append_cancel_left hv⟩

/-- A text that `word` describes stands in `s`, which stands itself behind `previous`, after a character
that `edge` admits. -/
def Stands (edge : Option Char → Prop) (word : Text → Prop) (previous : Option Char) (s : Text) : Prop :=
  ∃ p w q, s = p ++ (w ++ q) ∧ word w ∧ edge (p.getLast?.or previous)

variable {edge : Option Char → Prop} {word : Text → Prop} {previous : Option Char}

theorem occursIn_iff_stands :
    occursIn part s ↔ Stands (fun _ => True) (fun w => w = part) none s := by
  rw [occursIn_iff]
  constructor
  · intro ⟨p, q, hs⟩
    exact ⟨p, part, q, hs, rfl, trivial⟩
  · intro ⟨p, w, q, hs, hw, _⟩
    exact ⟨p, q, hw ▸ hs⟩

/-- A word stands where it stands, whatever is put around. -/
theorem Stands.within (u v : Text) (h : Stands edge word (u.getLast?.or previous) s) :
    Stands edge word previous (u ++ (s ++ v)) := by
  obtain ⟨p, w, q, rfl, hw, hedge⟩ := h
  refine ⟨u ++ p, w, q ++ v, by simp only [List.append_assoc], hw, ?_⟩
  rwa [List.getLast?_append, Option.or_assoc]

/-- Words without newlines stand before one or behind it. -/
theorem Stands.of_newline (hline : ∀ {w}, word w → '\n' ∉ w) (h : Stands edge word previous (p ++ '\n' :: q)) :
    Stands edge word previous p ∨ Stands edge word (some '\n') q := by
  obtain ⟨u, w, r, hplace, hw, hedge⟩ := h
  rcases List.append_eq_append_iff.mp hplace with ⟨n, rfl, hn⟩ | ⟨n, rfl, hn⟩
  · cases n with
    | nil =>
        cases w with
        | nil => exact .inl ⟨p, [], [], by simp, hw, by simpa using hedge⟩
        | cons ch w =>
            obtain rfl := (List.cons.inj hn).1
            exact absurd List.mem_cons_self (hline hw)
    | cons ch n =>
        obtain ⟨rfl, hq⟩ := List.cons.inj hn
        refine .inr ⟨n, w, r, hq, hw, ?_⟩
        rwa [← List.singleton_append, List.getLast?_append, List.getLast?_append, List.getLast?_singleton,
          Option.or_assoc, Option.or_assoc, Option.some_or] at hedge
  · have havoids : w.Avoids ('\n' :: q) := .of_head rfl (hline hw)
    obtain ⟨k, rfl⟩ := havoids.before (r := []) (by rw [hn, List.append_nil])
    exact .inl ⟨u, w, k, rfl, hw, hedge⟩

/-- A replacement by a text that avoids the words brings none of them about. -/
theorem stands_of_replaceFrom (hpart : part ≠ []) (hby : by_ ≠ [])
    (hword : ∀ {w}, word w → w.Avoids by_ ∧ by_.Avoids w)
    (hedge : edge by_.getLast? → edge part.getLast?)
    (h : Stands edge word previous (replaceFrom part by_ 0 s)) : Stands edge word previous s := by
  induction hn : s.length using Nat.strongRecOn generalizing s previous with
  | ind n ih =>
      rcases replaceFrom_cases by_ hpart s with ⟨-, hkept⟩ | ⟨-, u, t, hs, -, hreplace⟩
      · rwa [hkept] at h
      · have hlast {x : Text} (hx : x ≠ []) (o : Option Char) : x.getLast?.or o = x.getLast? := by
          rw [List.getLast?_eq_some_getLast hx, Option.some_or]
        have hshorter : t.length < n := by
          have hlength := List.length_pos_iff.mpr hpart
          rw [← hn, hs, List.length_append, List.length_append]
          omega
        obtain ⟨p, w, q, hplace, hw, hp⟩ := h
        obtain ⟨hwby, hbyw⟩ := hword hw
        rcases hwby.beside hbyw (hplace.symm.trans hreplace) with ⟨k, hu⟩ | ⟨k, hu, hrest⟩
        · refine ⟨p, w, k ++ (part ++ t), ?_, hw, hp⟩
          rw [hs, hu, List.append_assoc, List.append_assoc]
        · have hk : edge (k.getLast?.or part.getLast?) := by
            cases k with
            | nil =>
                rw [hu, List.append_nil, List.getLast?_append, hlast hby, hlast hby] at hp
                exact hedge hp
            | cons ch k =>
                have hne := List.cons_ne_nil ch k
                rw [hu, List.getLast?_append, List.getLast?_append, hlast hne, hlast hne,
                  hlast hne] at hp
                rwa [hlast hne]
          obtain ⟨p', w', q', ht, hw', hp'⟩ := ih t.length hshorter ⟨k, w, q, hrest, hw, hk⟩ rfl
          refine ⟨u ++ (part ++ p'), w', q', ?_, hw', ?_⟩
          · rw [hs, ht]
            simp only [List.append_assoc]
          · rw [List.getLast?_append, List.getLast?_append, Option.or_assoc, Option.or_assoc,
              hlast hpart]
            exact hp'

/-- A replacement that avoids what it replaces leaves none of it. -/
theorem not_occursIn_replaceFrom (hpart : part ≠ []) (hpb : part.Avoids by_) (hbp : by_.Avoids part)
    (s : Text) : occursIn part (replaceFrom part by_ 0 s) = false := by
  rw [← Bool.not_eq_true]
  intro h
  induction hn : s.length using Nat.strongRecOn generalizing s with
  | ind n ih =>
      rcases replaceFrom_cases by_ hpart s with ⟨hnone, hkept⟩ | ⟨-, u, t, hs, hfirst, hreplace⟩
      · rw [hkept, hnone] at h
        cases h
      · have hshorter : t.length < n := by
          have hlength := List.length_pos_iff.mpr hpart
          rw [← hn, hs, List.length_append, List.length_append]
          omega
        obtain ⟨p, q, hplace⟩ := occursIn_iff.mp h
        rcases hpb.beside hbp (hplace.symm.trans hreplace) with ⟨k, hu⟩ | ⟨k, -, hrest⟩
        · exact absurd (occursIn_iff.mpr ⟨p, k, hu⟩) (by simp [hfirst])
        · exact ih t.length hshorter t (occursIn_iff.mpr ⟨k, q, hrest⟩) rfl

end Crosscheck.Text
