import Crosscheck.Proofs.Text.Utf8
import Mathlib.Order.Interval.Set.Defs
import Mathlib.Order.Monotone.Basic
/-!
# Places in a text and in its bytes

A place in a text is told by the characters before it, or in the bytes of the text by the bytes before it.
Bytes can be cut just where a place is: of all bytes of a character, only the first one does not go on with
a character.
-/

namespace Crosscheck.Utf8

variable {s t : Text} {c : Char} {k n : Nat}

/-- The number of bytes of the first `k` characters. -/
def offset (s : Text) (k : Nat) : Nat := (encode (s.take k)).length

/-- Whether bytes can be cut behind the first `n` of them: at an end, or where no character goes on. -/
def isBoundary (bytes : Bytes) (n : Nat) : Bool :=
  n == 0 || n == bytes.length || bytes[n]?.any (!isTail ·)

theorem encode_cons (c : Char) (s : Text) : encode (c :: s) = encodeChar c ++ encode s := List.flatMap_cons

theorem encode_append (s t : Text) : encode (s ++ t) = encode s ++ encode t := List.flatMap_append

/-- Only the first byte of a character does not go on with it. -/
theorem encodeChar_eq_cons (c : Char) :
    ∃ b tail, encodeChar c = b :: tail ∧ isTail b = false ∧ ∀ t ∈ tail, isTail t := by
  have hvalid : c.toNat < 0xD800 ∨ 0xDFFF < c.toNat ∧ c.toNat < 0x110000 := c.valid
  have hfirst {n : Nat} (h : n < 0x80 ∨ 0xC0 ≤ n) (h' : n < 256) : isTail n.toUInt8 = false := by
    rw [isTail, toNat_toUInt8 h']
    simp only [Bool.and_eq_false_iff, decide_eq_false_iff_not]
    omega
  have hlast (n : Nat) : ∀ t ∈ [(0x80 + n % 64).toUInt8], isTail t := by
    rw [List.forall_mem_singleton]
    exact isTail_toUInt8 (Nat.mod_lt n (by decide))
  have hmore {n : Nat} {ts : Bytes} (h : ∀ t ∈ ts, isTail t) :
      ∀ t ∈ (0x80 + n % 64).toUInt8 :: ts, isTail t := by
    rw [List.forall_mem_cons]
    exact ⟨isTail_toUInt8 (Nat.mod_lt n (by decide)), h⟩
  simp only [encodeChar]
  split
  · exact ⟨_, _, rfl, hfirst (by omega) (by omega), by simp⟩
  split
  · exact ⟨_, _, rfl, hfirst (by omega) (by omega), hlast _⟩
  split
  · exact ⟨_, _, rfl, hfirst (by omega) (by omega), hmore (hlast _)⟩
  · exact ⟨_, _, rfl, hfirst (by omega) (by omega), hmore (hmore (hlast _))⟩

theorem length_encodeChar_pos (c : Char) : 0 < (encodeChar c).length := by
  obtain ⟨b, tail, hencode, -⟩ := encodeChar_eq_cons c
  simp [hencode]

/-! ## Offsets -/

@[simp] theorem offset_zero (s : Text) : offset s 0 = 0 := rfl

theorem offset_cons_succ (c : Char) (s : Text) (k : Nat) :
    offset (c :: s) (k + 1) = (encodeChar c).length + offset s k := by
  simp [offset, encode_cons]

theorem offset_of_length_le (h : s.length ≤ k) : offset s k = (encode s).length := by
  rw [offset, List.take_of_length_le h]

/-- The first bytes of a text are those of its first characters. -/
theorem take_offset (s : Text) (k : Nat) : (encode s).take (offset s k) = encode (s.take k) := by
  have hsplit : encode s = encode (s.take k) ++ encode (s.drop k) := by
    rw [← encode_append, List.take_append_drop]
  rw [hsplit, offset, List.take_left]

theorem drop_offset (s : Text) (k : Nat) : (encode s).drop (offset s k) = encode (s.drop k) := by
  have hsplit : encode s = encode (s.take k) ++ encode (s.drop k) := by
    rw [← encode_append, List.take_append_drop]
  rw [hsplit, offset, List.drop_left]

theorem offset_congr (h : t.take n = s.take n) (hk : k ≤ n) : offset t k = offset s k := by
  have htake (u : Text) : u.take k = (u.take n).take k := by rw [List.take_take, Nat.min_eq_left hk]
  rw [offset, offset, htake t, h, ← htake s]

/-- Places further on have greater offsets. -/
theorem strictMonoOn_offset (s : Text) : StrictMonoOn (offset s) (Set.Iic s.length) := by
  intro j _ k hk hjk
  induction s generalizing j k with
  | nil =>
      have hzero : k ≤ 0 := hk
      omega
  | cons c s ih =>
      obtain ⟨k, rfl⟩ : ∃ n, k = n + 1 := ⟨k - 1, by omega⟩
      have hks : k ≤ s.length := Nat.le_of_succ_le_succ hk
      rw [offset_cons_succ]
      cases j with
      | zero =>
          have hpos := length_encodeChar_pos c
          rw [offset_zero]
          omega
      | succ j =>
          have hlt := Nat.lt_of_succ_lt_succ hjk
          rw [offset_cons_succ]
          apply Nat.add_lt_add_left
          exact ih (Nat.le_trans (Nat.le_of_lt hlt) hks) hks hlt

/-! ## Boundaries -/

theorem isBoundary_iff {bytes : Bytes} : isBoundary bytes n ↔
    n = 0 ∨ n = bytes.length ∨ ∃ b, bytes[n]? = some b ∧ isTail b = false := by
  simp [isBoundary, or_assoc, Option.any_eq_true]

theorem isBoundary_offset (s : Text) (k : Nat) : isBoundary (encode s) (offset s k) := by
  rw [isBoundary_iff]
  by_cases hk : s.length ≤ k
  · exact .inr (.inl (offset_of_length_le hk))
  · have hlt : k < s.length := Nat.lt_of_not_le hk
    obtain ⟨b, tail, hencode, hb, -⟩ := encodeChar_eq_cons s[k]
    have hbyte : ((encode s).drop (offset s k))[0]? = some b := by
      rw [drop_offset, List.drop_eq_getElem_cons hlt, encode_cons, hencode]
      rfl
    rw [List.getElem?_drop] at hbyte
    exact .inr (.inr ⟨b, hbyte, hb⟩)

/-- Within a character there is no boundary. -/
theorem exists_offset (h : isBoundary (encode s) n) : ∃ k ≤ s.length, n = offset s k := by
  induction s generalizing n with
  | nil =>
      have hzero : n = 0 := by simpa [isBoundary, encode] using h
      exact ⟨0, Nat.le_refl 0, hzero⟩
  | cons c s ih =>
      obtain ⟨b, tail, hencode, -, htail⟩ := encodeChar_eq_cons c
      rw [encode_cons, isBoundary_iff] at h
      rcases Nat.eq_zero_or_pos n with hzero | hpos
      · exact ⟨0, Nat.zero_le _, hzero⟩
      replace h := h.resolve_left (Nat.ne_of_gt hpos)
      rcases Nat.lt_or_ge n (encodeChar c).length with hn | hn
      · exfalso
        rcases h with hend | ⟨b', hbyte, hb'⟩
        · rw [List.length_append] at hend
          omega
        · obtain ⟨m, rfl⟩ : ∃ m, n = m + 1 := ⟨n - 1, by omega⟩
          rw [List.getElem?_append_left hn, hencode, List.getElem?_cons_succ] at hbyte
          rw [htail b' (List.mem_of_getElem? hbyte)] at hb'
          cases hb'
      · obtain ⟨m, rfl⟩ := Nat.exists_eq_add_of_le hn
        rw [List.length_append, Nat.add_left_cancel_iff, List.getElem?_append_right hn,
          Nat.add_sub_cancel_left] at h
        have hm : isBoundary (encode s) m := isBoundary_iff.mpr (.inr h)
        obtain ⟨k, hk, rfl⟩ := ih hm
        exact ⟨k + 1, Nat.succ_le_succ hk, (offset_cons_succ c s k).symm⟩

end Crosscheck.Utf8
