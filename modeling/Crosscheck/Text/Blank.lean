import Crosscheck.Text.Basic
/-!
# Blank characters and trimming

A character is blank when it has the Unicode property White_Space. Trimming drops blank characters
from one or both ends and leaves the inside alone.
-/

namespace Crosscheck.Text

/-- The Unicode property White_Space. -/
def isBlank (c : Char) : Bool :=
  let n := c.toNat
  (9 ≤ n && n ≤ 13) || n == 32 || n == 0x85 || n == 0xA0 || n == 0x1680 ||
    (0x2000 ≤ n && n ≤ 0x200A) || n == 0x2028 || n == 0x2029 || n == 0x202F || n == 0x205F ||
    n == 0x3000

/-- Drop leading blanks. -/
def trimStart (s : Text) : Text := s.dropWhile isBlank

/-- Drop trailing blanks. -/
def trimEnd (s : Text) : Text := (s.reverse.dropWhile isBlank).reverse

/-- Drop blanks at both ends. -/
def trim (s : Text) : Text := trimEnd (trimStart s)

/-- Whether nothing but blanks is there. -/
def isBlankText (s : Text) : Bool := s.all isBlank

/-- The pieces between runs of blanks, none of them empty. -/
def words (s : Text) : List Text := (splitWhen isBlank s).filter (!·.isEmpty)

end Crosscheck.Text
