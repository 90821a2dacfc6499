import Crosscheck.Text.Basic
/-!
# UTF-8

Text to bytes and back. Decoding looks at the bytes from the front: each step finds one well-formed
character, or the longest beginning of one that breaks off, which counts as one piece of rubbish.
Strict decoding refuses rubbish; lenient decoding puts the replacement character in its place.
-/

namespace Crosscheck

/-- What files and pipes carry. -/
abbrev Bytes := List UInt8

namespace Utf8

/-- The bytes of one character. -/
def encodeChar (c : Char) : Bytes :=
  let n := c.toNat
  if n < 0x80 then [n.toUInt8]
  else if n < 0x800 then [(0xC0 + n / 64).toUInt8, (0x80 + n % 64).toUInt8]
  else if n < 0x10000 then
    [(0xE0 + n / 4096).toUInt8, (0x80 + n / 64 % 64).toUInt8, (0x80 + n % 64).toUInt8]
  else
    [(0xF0 + n / 262144).toUInt8, (0x80 + n / 4096 % 64).toUInt8, (0x80 + n / 64 % 64).toUInt8,
      (0x80 + n % 64).toUInt8]

/-- The bytes of a text. -/
def encode (s : Text) : Bytes := s.flatMap encodeChar

/-- What the front of a byte sequence holds. -/
inductive Front
  /-- A well-formed character and the number of its bytes. -/
  | char (c : Char) (width : Nat)
  /-- Bytes that begin no character, or break one off. -/
  | rubbish (width : Nat)

/-- The number of bytes that `b` announces, and the range that the second of them must be in:
the range excludes overlong forms, surrogates and numbers past the last character. -/
def announced (b : Nat) : Option (Nat × Nat × Nat) :=
  if b < 0xC2 then none
  else if b < 0xE0 then some (2, 0x80, 0xBF)
  else if b = 0xE0 then some (3, 0xA0, 0xBF)
  else if b = 0xED then some (3, 0x80, 0x9F)
  else if b < 0xF0 then some (3, 0x80, 0xBF)
  else if b = 0xF0 then some (4, 0x90, 0xBF)
  else if b < 0xF4 then some (4, 0x80, 0xBF)
  else if b = 0xF4 then some (4, 0x80, 0x8F)
  else none

/-- Whether `b` carries six more bits of a character. -/
def isTail (b : UInt8) : Bool := 0x80 ≤ b.toNat && b.toNat ≤ 0xBF

/-- Read the front of `b :: rest`. -/
def front (b : UInt8) (rest : Bytes) : Front :=
  let low (t : UInt8) : Nat := t.toNat - 0x80
  if b.toNat < 0x80 then .char (Char.ofNat b.toNat) 1
  else match announced b.toNat with
    | none => .rubbish 1
    | some (width, lo, hi) =>
      match rest with
      | [] => .rubbish 1
      | t :: rest =>
        if t.toNat < lo || hi < t.toNat then .rubbish 1
        else if width = 2 then .char (Char.ofNat ((b.toNat - 0xC0) * 64 + low t)) 2
        else match rest with
          | [] => .rubbish 2
          | u :: rest =>
            if !isTail u then .rubbish 2
            else if width = 3 then
              .char (Char.ofNat ((b.toNat - 0xE0) * 4096 + low t * 64 + low u)) 3
            else match rest with
              | [] => .rubbish 3
              | v :: _ =>
                if !isTail v then .rubbish 3
                else .char (Char.ofNat ((b.toNat - 0xF0) * 262144 + low t * 4096 + low u * 64 + low v)) 4

/-- The fronts of a byte sequence in order, after passing over `skip` bytes. -/
def fronts : Nat → Bytes → List Front
  | _, [] => []
  | skip + 1, _ :: bs => fronts skip bs
  | 0, b :: bs =>
    let f := front b bs
    f :: fronts (match f with | .char _ w => w - 1 | .rubbish w => w - 1) bs

/-- The text that the bytes encode, unless some of them are rubbish. -/
def decode? (bs : Bytes) : Option Text :=
  (fronts 0 bs).mapM fun
    | .char c _ => some c
    | .rubbish _ => none

/-- The text that the bytes encode, each piece of rubbish as U+FFFD. -/
def decodeLenient (bs : Bytes) : Text :=
  (fronts 0 bs).map fun
    | .char c _ => c
    | .rubbish _ => '\uFFFD'

end Utf8

end Crosscheck
