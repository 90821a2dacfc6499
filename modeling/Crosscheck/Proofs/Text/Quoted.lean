import Crosscheck.Text.Quoted
import Mathlib.Data.List.TakeWhile
/-!
# Where a quoted text ends

What stands for a character between quotes is never the beginning of what stands for another, and none of
it begins with a quote. So a quoted text is told apart from what follows it.
-/

namespace Crosscheck.Text

variable {c d : Char} {s t u v : Text}

/-! ## Hexadecimal digits -/

theorem hex_of_le {n : Nat} (hn : 16 ≤ n) : hex n = hex (n / 16) ++ [(n % 16).digitChar] :=
  Nat.toDigits_of_base_le (by decide) hn

theorem hex_of_lt {n : Nat} (hn : n < 16) : hex n = [n.digitChar] :=
  Nat.toDigits_of_lt_base hn

theorem hex_ne_nil (n : Nat) : hex n ≠ [] := Nat.toDigits_ne_nil

theorem digitChar_inj : ∀ m < 16, ∀ n < 16, m.digitChar = n.digitChar → m = n := by decide

theorem digitChar_ne_brace : ∀ n < 16, n.digitChar ≠ '\x7d' := by decide

theorem hex_inj {m n : Nat} (h : hex m = hex n) : m = n := by
  induction m using Nat.strongRecOn generalizing n with
  | ind m ih =>
      rcases Nat.lt_or_ge m 16 with hm | hm <;> rcases Nat.lt_or_ge n 16 with hn | hn
      · rw [hex_of_lt hm, hex_of_lt hn, List.cons.injEq] at h
        exact digitChar_inj m hm n hn h.1
      · have hlength := congrArg List.length h
        have hpos := List.length_pos_iff.mpr (hex_ne_nil (n / 16))
        rw [hex_of_lt hm, hex_of_le hn] at hlength
        simp only [List.length_append, List.length_singleton] at hlength
        omega
      · have hlength := congrArg List.length h
        have hpos := List.length_pos_iff.mpr (hex_ne_nil (m / 16))
        rw [hex_of_le hm, hex_of_lt hn] at hlength
        simp only [List.length_append, List.length_singleton] at hlength
        omega
      · rw [hex_of_le hm, hex_of_le hn] at h
        obtain ⟨hfront, hlast⟩ := List.append_inj' h rfl
        have hquotient := ih (m / 16) (by omega) hfront
        rw [List.cons.injEq] at hlast
        have hrest := digitChar_inj (m % 16) (by omega) (n % 16) (by omega) hlast.1
        omega

theorem brace_not_mem_hex (n : Nat) : '\x7d' ∉ hex n := by
  induction n using Nat.strongRecOn with
  | ind n ih =>
      rcases Nat.lt_or_ge n 16 with hn | hn
      · rw [hex_of_lt hn, List.mem_singleton]
        exact (digitChar_ne_brace n hn).symm
      · rw [hex_of_le hn, List.mem_append, List.mem_singleton, not_or]
        exact ⟨ih (n / 16) (by omega), (digitChar_ne_brace (n % 16) (by omega)).symm⟩

theorem hex_append_inj {m n : Nat} (h : hex m ++ '\x7d' :: s = hex n ++ '\x7d' :: t) : m = n ∧ s = t := by
  have hcut (n : Nat) (s : Text) :
      (hex n ++ '\x7d' :: s).takeWhile (· ≠ '\x7d') = hex n := by
    have hall : ∀ c ∈ hex n, decide (c ≠ '\x7d') = true := by
      simpa using List.forall_mem_ne'.mpr (brace_not_mem_hex n)
    rw [List.takeWhile_append_of_pos hall]
    simp
  have hdigits : hex m = hex n := by rw [← hcut m s, ← hcut n t, h]
  rw [hdigits] at h
  have hrest := List.append_cancel_left h
  rw [List.cons.injEq] at hrest
  exact ⟨hex_inj hdigits, hrest.2⟩

/-! ## Characters between quotes -/

/-- What a character stands for behind a backslash. -/
def unescaped (e : Char) : Char :=
  if e = 'n' then '\n' else if e = 'r' then '\r' else if e = 't' then '\t'
  else if e = '0' then '\x00' else e

/-- A character is shown behind a backslash, by its code point, or as it is. -/
theorem quotedChar_eq (c : Char) : (∃ e, e ≠ 'u' ∧ quotedChar c = ['\\', e] ∧ c = unescaped e) ∨
    quotedChar c = ['\\', 'u', '\x7b'] ++ hex c.toNat ++ ['\x7d'] ∨
    (quotedChar c = [c] ∧ c ≠ '\\' ∧ c ≠ '"') := by
  by_cases hquote : c = '"'
  · subst hquote
    exact .inl ⟨'"', by decide, rfl, rfl⟩
  by_cases hslash : c = '\\'
  · subst hslash
    exact .inl ⟨'\\', by decide, rfl, rfl⟩
  by_cases hn : c = '\n'
  · subst hn
    exact .inl ⟨'n', by decide, rfl, rfl⟩
  by_cases hr : c = '\r'
  · subst hr
    exact .inl ⟨'r', by decide, rfl, rfl⟩
  by_cases ht : c = '\t'
  · subst ht
    exact .inl ⟨'t', by decide, rfl, rfl⟩
  by_cases hzero : c = '\x00'
  · subst hzero
    exact .inl ⟨'0', by decide, rfl, rfl⟩
  right
  simp only [quotedChar, hquote, hslash, hn, hr, ht, hzero, if_false]
  split
  · exact .inl rfl
  · exact .inr ⟨rfl, hslash, hquote⟩

/-- What stands for a character is not the beginning of what stands for another. -/
theorem quotedChar_append_inj (h : quotedChar c ++ s = quotedChar d ++ t) : c = d ∧ s = t := by
  rcases quotedChar_eq c with ⟨e, he, hc, rfl⟩ | hc | ⟨hc, hslash, -⟩ <;>
    rcases quotedChar_eq d with ⟨f, hf, hd, rfl⟩ | hd | ⟨hd, hslash', -⟩ <;>
    rw [hc, hd] at h <;>
    simp only [List.cons_append, List.nil_append, List.append_assoc, List.cons.injEq, true_and] at h
  · exact ⟨congrArg unescaped h.1, h.2⟩
  · exact absurd h.1 he
  · exact absurd h.1.symm hslash'
  · exact absurd h.1.symm hf
  · obtain ⟨hcode, hrest⟩ := hex_append_inj h
    exact ⟨Char.toNat_inj.mp hcode, hrest⟩
  · exact absurd h.1.symm hslash'
  · exact absurd h.1 hslash
  · exact absurd h.1 hslash
  · exact h

theorem head?_quotedChar (c : Char) (s : Text) : (quotedChar c ++ s).head? ≠ some '"' := by
  rcases quotedChar_eq c with ⟨e, -, hc, -⟩ | hc | ⟨hc, -, hquote⟩
  · simp [hc]
  · simp [hc]
  · simpa [hc] using hquote

/-- A quoted text ends where it is closed. -/
theorem quoted_append_inj (h : quoted s ++ u = quoted t ++ v) : s = t ∧ u = v := by
  have hinner : s.flatMap quotedChar ++ '"' :: u = t.flatMap quotedChar ++ '"' :: v := by
    simpa [quoted] using h
  clear h
  induction s generalizing t with
  | nil =>
      cases t with
      | nil => simpa using hinner
      | cons d t =>
          have hhead := congrArg List.head? hinner
          rw [List.flatMap_cons, List.append_assoc] at hhead
          exact absurd hhead.symm (head?_quotedChar d _)
  | cons c s ih =>
      cases t with
      | nil =>
          have hhead := congrArg List.head? hinner
          rw [List.flatMap_cons, List.append_assoc] at hhead
          exact absurd hhead (head?_quotedChar c _)
      | cons d t =>
          rw [List.flatMap_cons, List.flatMap_cons, List.append_assoc, List.append_assoc] at hinner
          obtain ⟨rfl, hrest⟩ := quotedChar_append_inj hinner
          obtain ⟨rfl, hbehind⟩ := ih hrest
          exact ⟨rfl, hbehind⟩

end Crosscheck.Text
