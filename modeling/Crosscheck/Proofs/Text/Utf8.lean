import Crosscheck.Text.Utf8
import Mathlib.Data.List.Basic
/-!
# Reading back UTF-8

The bytes of a character are recognized as that character whatever follows them, and nothing else is. So a
text is read back from its bytes, and bytes that are read are those of the text. Lenient reading leaves a
replacement character in the place of everything else.
-/

namespace Crosscheck.Utf8

variable {c : Char} {n b t : Nat} {rest : Bytes}

/-- A byte below 256 is its own value. -/
theorem toNat_toUInt8 (h : n < 256) : n.toUInt8.toNat = n := by
  simp [Nat.mod_eq_of_lt h]

theorem isTail_toUInt8 (h : n < 64) : isTail (0x80 + n).toUInt8 = true := by
  rw [isTail, toNat_toUInt8 (by omega)]
  simp
  omega

/-! ## What a first byte announces -/

theorem announced_two (h : 0xC2 ≤ b) (h' : b < 0xE0) : announced b = some (2, 0x80, 0xBF) := by
  rw [announced, if_neg (by omega), if_pos h']

/-- The second of three bytes is in the range that the first one announces. -/
theorem announced_three (h : 0x800 ≤ n) (h' : n < 0x10000) (hvalid : n < 0xD800 ∨ 0xDFFF < n) :
    ∃ lo hi, announced (0xE0 + n / 4096) = some (3, lo, hi) ∧ lo ≤ 0x80 + n / 64 % 64 ∧
      0x80 + n / 64 % 64 ≤ hi := by
  rw [announced, if_neg (by omega), if_neg (by omega)]
  split
  · exact ⟨_, _, rfl, by omega, by omega⟩
  · split
    · exact ⟨_, _, rfl, by omega, by omega⟩
    · rw [if_pos (by omega)]
      exact ⟨_, _, rfl, by omega, by omega⟩

/-- The second of four bytes is in the range that the first one announces. -/
theorem announced_four (h : 0x10000 ≤ n) (h' : n < 0x110000) :
    ∃ lo hi, announced (0xF0 + n / 262144) = some (4, lo, hi) ∧ lo ≤ 0x80 + n / 4096 % 64 ∧
      0x80 + n / 4096 % 64 ≤ hi := by
  rw [announced, if_neg (by omega), if_neg (by omega), if_neg (by omega), if_neg (by omega),
    if_neg (by omega)]
  split
  · exact ⟨_, _, rfl, by omega, by omega⟩
  · split
    · exact ⟨_, _, rfl, by omega, by omega⟩
    · rw [if_pos (by omega)]
      exact ⟨_, _, rfl, by omega, by omega⟩

/-! ## Characters and texts -/

/-- The first byte of a character and those behind it tell the character. -/
theorem front_encodeChar (c : Char) (rest : Bytes) :
    ∃ b tail, encodeChar c = b :: tail ∧ front b (tail ++ rest) = .char c (tail.length + 1) := by
  have hvalid : c.toNat < 0xD800 ∨ 0xDFFF < c.toNat ∧ c.toNat < 0x110000 := c.valid
  have hchar : Char.ofNat c.toNat = c := Char.ofNat_toNat c
  simp only [encodeChar]
  generalize c.toNat = n at hvalid hchar
  split
  · next h =>
    refine ⟨_, _, rfl, ?_⟩
    rw [front, toNat_toUInt8 (by omega), if_pos h, hchar]
    rfl
  · next h =>
    split
    · next h' =>
      refine ⟨_, _, rfl, ?_⟩
      have hvalue : (0xC0 + n / 64 - 0xC0) * 64 + (0x80 + n % 64 - 0x80) = n := by omega
      simp only [front, List.cons_append, toNat_toUInt8 (show 0xC0 + n / 64 < 256 by omega),
        toNat_toUInt8 (show 0x80 + n % 64 < 256 by omega), announced_two (show 0xC2 ≤ 0xC0 + n / 64 by omega)
          (show 0xC0 + n / 64 < 0xE0 by omega)]
      rw [if_neg (by omega), if_neg (by simp; omega), if_pos trivial, hvalue, hchar]
      rfl
    · next h' =>
      split
      · next h'' =>
        refine ⟨_, _, rfl, ?_⟩
        obtain ⟨lo, hi, hannounced, hlo, hhi⟩ :=
          announced_three (n := n) (by omega) h'' (by omega)
        have hvalue : (0xE0 + n / 4096 - 0xE0) * 4096 + (0x80 + n / 64 % 64 - 0x80) * 64 +
            (0x80 + n % 64 - 0x80) = n := by omega
        simp only [front, List.cons_append, toNat_toUInt8 (show 0xE0 + n / 4096 < 256 by omega),
          toNat_toUInt8 (show 0x80 + n / 64 % 64 < 256 by omega),
          toNat_toUInt8 (show 0x80 + n % 64 < 256 by omega), hannounced,
          isTail_toUInt8 (show n % 64 < 64 by omega)]
        rw [if_neg (by omega), if_neg (by simp; omega), if_neg (by decide), if_neg (by decide), if_pos trivial,
          hvalue, hchar]
        rfl
      · next h'' =>
        refine ⟨_, _, rfl, ?_⟩
        obtain ⟨lo, hi, hannounced, hlo, hhi⟩ :=
          announced_four (n := n) (by omega) (by omega)
        have hvalue : (0xF0 + n / 262144 - 0xF0) * 262144 + (0x80 + n / 4096 % 64 - 0x80) * 4096 +
            (0x80 + n / 64 % 64 - 0x80) * 64 + (0x80 + n % 64 - 0x80) = n := by omega
        simp only [front, List.cons_append, toNat_toUInt8 (show 0xF0 + n / 262144 < 256 by omega),
          toNat_toUInt8 (show 0x80 + n / 4096 % 64 < 256 by omega),
          toNat_toUInt8 (show 0x80 + n / 64 % 64 < 256 by omega),
          toNat_toUInt8 (show 0x80 + n % 64 < 256 by omega), hannounced,
          isTail_toUInt8 (show n / 64 % 64 < 64 by omega), isTail_toUInt8 (show n % 64 < 64 by omega)]
        rw [if_neg (by omega), if_neg (by simp; omega), if_neg (by decide), if_neg (by decide),
          if_neg (by decide), if_neg (by decide), hvalue, hchar]
        rfl

theorem fronts_skip (bytes rest : Bytes) : fronts bytes.length (bytes ++ rest) = fronts 0 rest := by
  induction bytes with
  | nil => rfl
  | cons b bytes ih => exact ih

theorem fronts_encodeChar (c : Char) (rest : Bytes) :
    ∃ width, fronts 0 (encodeChar c ++ rest) = .char c width :: fronts 0 rest := by
  obtain ⟨b, tail, hencode, hfront⟩ := front_encodeChar c rest
  refine ⟨tail.length + 1, ?_⟩
  rw [hencode, List.cons_append, fronts, hfront]
  simp only [Nat.add_sub_cancel, fronts_skip]

/-- A text is read back from its bytes. -/
theorem decode?_encode (s : Text) : decode? (encode s) = some s := by
  induction s with
  | nil => rfl
  | cons c s ih =>
      obtain ⟨width, hfronts⟩ := fronts_encodeChar c (encode s)
      rw [decode?] at ih ⊢
      rw [encode, List.flatMap_cons, ← encode, hfronts, List.mapM_cons, ih]
      rfl

/-! ## Nothing else is read -/

/-- The number of bytes that a first byte announces, with the range of the second one. -/
theorem announced_eq_some {width lo hi : Nat} (h : announced b = some (width, lo, hi)) :
    0x80 ≤ lo ∧ hi ≤ 0xBF ∧
      ((width = 2 ∧ 0xC2 ≤ b ∧ b < 0xE0) ∨
        (width = 3 ∧ 0xE0 ≤ b ∧ b < 0xF0 ∧ (b = 0xE0 → 0xA0 ≤ lo) ∧ (b = 0xED → hi ≤ 0x9F)) ∨
        (width = 4 ∧ 0xF0 ≤ b ∧ b < 0xF5 ∧ (b = 0xF0 → 0x90 ≤ lo) ∧ (b = 0xF4 → hi ≤ 0x8F))) := by
  rw [announced] at h
  split_ifs at h <;> cases h <;> omega

theorem isTail_iff {b : UInt8} : isTail b ↔ 0x80 ≤ b.toNat ∧ b.toNat ≤ 0xBF := by
  simp [isTail]

theorem toUInt8_eq {b : UInt8} (h : n = b.toNat) : n.toUInt8 = b := by
  subst h
  exact UInt8.ofNat_toNat

theorem toNat_ofNat (h : n < 0xD800 ∨ 0xDFFF < n ∧ n < 0x110000) : (Char.ofNat n).toNat = n := by
  rw [Char.ofNat, dif_pos h]
  rfl

section Bytes

variable {b t u v : UInt8}

theorem encodeChar_one (hb : b.toNat < 0x80) : encodeChar (Char.ofNat b.toNat) = [b] := by
  rw [encodeChar, toNat_ofNat (by omega), if_pos hb, toUInt8_eq rfl]

theorem encodeChar_two (hb : 0xC2 ≤ b.toNat ∧ b.toNat < 0xE0) (ht : 0x80 ≤ t.toNat ∧ t.toNat ≤ 0xBF) :
    encodeChar (Char.ofNat ((b.toNat - 0xC0) * 64 + (t.toNat - 0x80))) = [b, t] := by
  have hvalid := toNat_ofNat (n := (b.toNat - 0xC0) * 64 + (t.toNat - 0x80)) (by omega)
  rw [encodeChar, hvalid, if_neg (by omega), if_pos (by omega), toUInt8_eq (b := b) (by omega),
    toUInt8_eq (b := t) (by omega)]

/-- The range of the second byte excludes overlong forms and surrogates. -/
theorem encodeChar_three (hb : 0xE0 ≤ b.toNat ∧ b.toNat < 0xF0) (ht : 0x80 ≤ t.toNat ∧ t.toNat ≤ 0xBF)
    (hlong : b.toNat = 0xE0 → 0xA0 ≤ t.toNat) (hsurrogate : b.toNat = 0xED → t.toNat ≤ 0x9F)
    (hu : 0x80 ≤ u.toNat ∧ u.toNat ≤ 0xBF) : encodeChar (Char.ofNat ((b.toNat - 0xE0) * 4096 +
      (t.toNat - 0x80) * 64 + (u.toNat - 0x80))) = [b, t, u] := by
  have hvalid := toNat_ofNat
    (n := (b.toNat - 0xE0) * 4096 + (t.toNat - 0x80) * 64 + (u.toNat - 0x80)) (by omega)
  rw [encodeChar, hvalid, if_neg (by omega), if_neg (by omega), if_pos (by omega),
    toUInt8_eq (b := b) (by omega), toUInt8_eq (b := t) (by omega), toUInt8_eq (b := u) (by omega)]

/-- The range of the second byte excludes overlong forms and numbers past the last character. -/
theorem encodeChar_four (hb : 0xF0 ≤ b.toNat ∧ b.toNat < 0xF5) (ht : 0x80 ≤ t.toNat ∧ t.toNat ≤ 0xBF)
    (hlong : b.toNat = 0xF0 → 0x90 ≤ t.toNat) (hlast : b.toNat = 0xF4 → t.toNat ≤ 0x8F)
    (hu : 0x80 ≤ u.toNat ∧ u.toNat ≤ 0xBF) (hv : 0x80 ≤ v.toNat ∧ v.toNat ≤ 0xBF) :
    encodeChar (Char.ofNat ((b.toNat - 0xF0) * 262144 + (t.toNat - 0x80) * 4096 +
      (u.toNat - 0x80) * 64 + (v.toNat - 0x80))) = [b, t, u, v] := by
  have hvalid := toNat_ofNat (n := (b.toNat - 0xF0) * 262144 + (t.toNat - 0x80) * 4096 +
    (u.toNat - 0x80) * 64 + (v.toNat - 0x80)) (by omega)
  rw [encodeChar, hvalid, if_neg (by omega), if_neg (by omega), if_neg (by omega),
    toUInt8_eq (b := b) (by omega), toUInt8_eq (b := t) (by omega), toUInt8_eq (b := u) (by omega),
    toUInt8_eq (b := v) (by omega)]

/-- What is read from the front as a character are the bytes of this character. -/
theorem encodeChar_of_front {width : Nat} (h : front b rest = .char c width) :
    ∃ tail after, rest = tail ++ after ∧ encodeChar c = b :: tail ∧ width = tail.length + 1 := by
  simp only [front] at h
  split at h
  · next hb =>
    obtain ⟨rfl, rfl⟩ := Front.char.inj h
    exact ⟨[], rest, rfl, encodeChar_one hb, rfl⟩
  split at h
  · cases h
  next w lo hi hannounced =>
  obtain ⟨hlo, hhi, hwidth⟩ := announced_eq_some hannounced
  split at h
  · cases h
  next t rest =>
  split at h
  · cases h
  next hsecond =>
  have ht : lo ≤ t.toNat ∧ t.toNat ≤ hi := by simpa using hsecond
  split at h
  · next htwo =>
    obtain ⟨rfl, rfl⟩ := Front.char.inj h
    exact ⟨[t], rest, rfl, encodeChar_two (by omega) (by omega), rfl⟩
  split at h
  · cases h
  next u rest =>
  split at h
  · cases h
  next hthird =>
  have hu := isTail_iff.mp (by simpa using hthird)
  split at h
  · next hthree =>
    obtain ⟨rfl, rfl⟩ := Front.char.inj h
    exact ⟨[t, u], rest, rfl,
      encodeChar_three (by omega) (by omega) (by omega) (by omega) hu, rfl⟩
  split at h
  · cases h
  next v rest =>
  split at h
  · cases h
  next hfourth =>
  have hv := isTail_iff.mp (by simpa using hfourth)
  obtain ⟨rfl, rfl⟩ := Front.char.inj h
  exact ⟨[t, u, v], rest, rfl,
    encodeChar_four (by omega) (by omega) (by omega) (by omega) hu hv, rfl⟩

end Bytes

theorem encode_of_decode? (bytes : Bytes) {s : Text} (h : decode? bytes = some s) : encode s = bytes := by
  induction hn : bytes.length using Nat.strongRecOn generalizing bytes s with
  | ind n ih =>
      cases bytes with
      | nil =>
          obtain rfl := Option.some.inj h
          rfl
      | cons b bytes =>
          rw [decode?, fronts, List.mapM_cons] at h
          cases hfront : front b bytes with
          | rubbish => simp [hfront] at h
          | char c width =>
              obtain ⟨tail, after, rfl, hencode, rfl⟩ := encodeChar_of_front hfront
              simp only [hfront, Nat.add_sub_cancel, fronts_skip, Option.bind_eq_bind, Option.bind_some] at h
              obtain ⟨s', hs', hs⟩ := Option.bind_eq_some_iff.mp h
              obtain rfl := Option.some.inj hs
              have hshorter : after.length < n := by
                rw [← hn, List.length_cons, List.length_append]
                omega
              have hrest := ih after.length hshorter after hs' rfl
              rw [encode, List.flatMap_cons, ← encode, hencode, hrest, List.cons_append]

/-- The bytes that are read as a text are those that encode it. -/
theorem decode?_eq_some_iff {bytes : Bytes} {s : Text} : decode? bytes = some s ↔ bytes = encode s := by
  constructor
  · intro h
    exact (encode_of_decode? bytes h).symm
  · rintro rfl
    exact decode?_encode s

/-! ## Lenient reading -/

theorem decodeLenient_of_decode? {bytes : Bytes} {s : Text} (h : decode? bytes = some s) :
    decodeLenient bytes = s := by
  rw [decode?] at h
  rw [decodeLenient]
  generalize fronts 0 bytes = fs at h ⊢
  induction fs generalizing s with
  | nil => exact Option.some.inj h
  | cons f fs ih =>
      rw [List.mapM_cons] at h
      obtain ⟨c, hc, h⟩ := Option.bind_eq_some_iff.mp h
      obtain ⟨t, ht, h⟩ := Option.bind_eq_some_iff.mp h
      obtain rfl := Option.some.inj h
      cases f with
      | rubbish => cases hc
      | char c' =>
          obtain rfl := Option.some.inj hc
          rw [List.map_cons, ih ht]

theorem decodeLenient_encode (s : Text) : decodeLenient (encode s) = s :=
  decodeLenient_of_decode? (decode?_encode s)

/-- Bytes that encode no text are read with a replacement character. -/
theorem mem_decodeLenient {bytes : Bytes} (h : ∀ s, bytes ≠ encode s) : '\uFFFD' ∈ decodeLenient bytes := by
  have hnone : decode? bytes = none := by
    rw [Option.eq_none_iff_forall_ne_some]
    intro s hs
    exact h s (decode?_eq_some_iff.mp hs)
  rw [decode?] at hnone
  rw [decodeLenient]
  generalize fronts 0 bytes = fs at hnone ⊢
  induction fs with
  | nil => cases hnone
  | cons f fs ih =>
      rw [List.map_cons, List.mem_cons]
      cases f with
      | rubbish => exact .inl rfl
      | char =>
          refine .inr (ih (Option.eq_none_iff_forall_ne_some.mpr fun t ht => ?_))
          simp [List.mapM_cons, ht] at hnone

end Crosscheck.Utf8
