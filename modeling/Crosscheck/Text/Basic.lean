/-!
# Text

Text is a list of characters, so every stage that reads or writes it can be followed by
structural recursion. A string literal stands for the list of its characters.
-/

namespace Crosscheck

/-- What every stage reads and writes: a list of Unicode scalar values. -/
abbrev Text := List Char

instance : Coe String Text := ⟨String.toList⟩

namespace Text

/-- The rest of `s` after a leading `lead`, if `s` starts with it. -/
def after? (lead s : Text) : Option Text := lead.isPrefixOf? s

/-- Whether `part` occurs somewhere in `s`. -/
def occursIn (part : Text) : Text → Bool
  | [] => part.isEmpty
  | c :: s => part.isPrefixOf (c :: s) || occursIn part s

/-- What stands before and after the first occurrence of `sep`. -/
def cutAt? (sep : Text) : Text → Option (Text × Text)
  | [] => if sep.isEmpty then some ([], []) else none
  | c :: s =>
    match after? sep (c :: s) with
    | some rest => some ([], rest)
    | none => (cutAt? sep s).map fun (before, rest) => (c :: before, rest)

/-- Lay the pieces one after the other with `sep` between neighbours. -/
def join (sep : Text) : List Text → Text
  | [] => []
  | [t] => t
  | t :: u :: ts => t ++ sep ++ join sep (u :: ts)

/-- Cut at every character that `isSep` accepts; there is always one more piece than separators. -/
def splitWhen (isSep : Char → Bool) : Text → List Text
  | [] => [[]]
  | c :: s =>
    if isSep c then [] :: splitWhen isSep s
    else match splitWhen isSep s with
      | [] => [[c]]
      | piece :: pieces => (c :: piece) :: pieces

/-- Decimal digits of a natural number. -/
def ofNat (n : Nat) : Text := Nat.toDigits 10 n

/-- Decimal digits of an integer, with a leading minus for a negative one. -/
def ofInt : Int → Text
  | .ofNat n => ofNat n
  | .negSucc n => '-' :: ofNat (n + 1)

/-- The lower-case hexadecimal digits of a natural number, without padding. -/
def hex (n : Nat) : Text := Nat.toDigits 16 n

/-- The value of a run of decimal digits. -/
def natOfDigits (ds : Text) : Nat := ds.foldl (fun n d => 10 * n + (d.toNat - '0'.toNat)) 0

/-- Whether `s` comes before or equals `t` when characters are compared by code point. -/
def precedes : Text → Text → Bool
  | [], _ => true
  | _ :: _, [] => false
  | c :: s, d :: t => if c = d then precedes s t else c.toNat < d.toNat

end Text

end Crosscheck
