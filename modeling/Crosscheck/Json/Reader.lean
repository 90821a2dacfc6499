import Crosscheck.Json.Form
import Crosscheck.Text.WordChar
/-!
# Reading JSON

A reader of strict JSON: no comments, no trailing commas, no raw control characters in strings, no
superfluous zeros. Each function takes the text ahead and gives back what it read and the text that
follows. The depth of recursion is bounded by the length of the text, because every step uses up at
least one character.
-/

namespace Crosscheck.Json

/-- The four characters that may stand between tokens. -/
def isSpace (c : Char) : Bool := c == ' ' || c == '\n' || c == '\t' || c == '\r'

/-- Pass over space. -/
def skipSpace (s : Text) : Text := s.dropWhile isSpace

/-- The value of a hexadecimal digit. -/
def hexDigit? (c : Char) : Option Nat :=
  let n := c.toNat
  if 48 ≤ n ∧ n ≤ 57 then some (n - 48)
  else if 97 ≤ n ∧ n ≤ 102 then some (n - 87)
  else if 65 ≤ n ∧ n ≤ 70 then some (n - 55)
  else none

/-- The value of four hexadecimal digits. -/
def hex4? (a b c d : Char) : Option Nat := do
  let a ← hexDigit? a
  let b ← hexDigit? b
  let c ← hexDigit? c
  let d ← hexDigit? d
  return ((a * 16 + b) * 16 + c) * 16 + d

/-- What a backslash and one character stand for. -/
def shortEscape? (c : Char) : Option Nat :=
  if c = '"' then some 34
  else if c = '\\' then some 92
  else if c = '/' then some 47
  else if c = 'b' then some 8
  else if c = 'f' then some 12
  else if c = 'n' then some 10
  else if c = 'r' then some 13
  else if c = 't' then some 9
  else none

/-- The rest of a string after its opening quote, as code units: a character counts with its code
point, an escape of four digits with its number. -/
def readUnits : Text → Option (List Nat × Text)
  | [] => none
  | '"' :: rest => some ([], rest)
  | '\\' :: 'u' :: a :: b :: c :: d :: rest =>
    match hex4? a b c d, readUnits rest with
    | some n, some (units, after) => some (n :: units, after)
    | _, _ => none
  | '\\' :: e :: rest =>
    match shortEscape? e, readUnits rest with
    | some n, some (units, after) => some (n :: units, after)
    | _, _ => none
  | c :: rest =>
    if c.toNat < 32 then none
    else match readUnits rest with
      | some (units, after) => some (c.toNat :: units, after)
      | none => none

/-- The characters that code units spell; none if a surrogate stands alone. -/
def ofUnits? : List Nat → Option Text
  | [] => some []
  | [n] => if n.isValidChar then some [Char.ofNat n] else none
  | n :: m :: rest =>
    if n.isValidChar then (ofUnits? (m :: rest)).map (Char.ofNat n :: ·)
    else if n < 0xDC00 ∧ 0xDC00 ≤ m ∧ m < 0xE000 then
      (ofUnits? rest).map (Char.ofNat (0x10000 + (n - 0xD800) * 0x400 + (m - 0xDC00)) :: ·)
    else none

/-- The rest of a string after its opening quote. -/
def readString (s : Text) : Option (Option Text × Text) :=
  (readUnits s).map fun (units, after) => (ofUnits? units, after)

/-- A run of at least one digit. -/
def readDigits (s : Text) : Option (Text × Text) :=
  let ds := s.takeWhile Text.isAsciiDigit
  if ds.isEmpty then none else some (ds, s.dropWhile Text.isAsciiDigit)

/-- The digits before the point: a zero stands alone. -/
def readWhole (s : Text) : Option (Text × Text) :=
  match readDigits s with
  | some ('0' :: _ :: _, _) => none
  | r => r

/-- A point and digits, if there is a point. -/
def readFraction : Text → Option (Option Text × Text)
  | '.' :: s => (readDigits s).map fun (ds, after) => (some ds, after)
  | s => some (none, s)

/-- A power of ten, if there is one. -/
def readExponent : Text → Option (Option Int × Text)
  | c :: s =>
    if c = 'e' ∨ c = 'E' then
      let (negative, s) := match s with
        | '+' :: s => (false, s)
        | '-' :: s => (true, s)
        | s => (false, s)
      (readDigits s).map fun (ds, after) =>
        let n : Int := Text.natOfDigits ds
        (some (if negative then -n else n), after)
    else some (none, c :: s)
  | [] => some (none, [])

/-- A number. -/
def readNumeral (s : Text) : Option (Numeral × Text) := do
  let (negative, s) := match s with
    | '-' :: s => (true, s)
    | s => (false, s)
  let (whole, s) ← readWhole s
  let (fraction, s) ← readFraction s
  let (exponent, s) ← readExponent s
  return (⟨negative, whole, fraction, exponent⟩, s)

mutual

/-- A value, with space allowed before it. -/
def readForm : Nat → Text → Option (Form × Text)
  | 0, _ => none
  | fuel + 1, s =>
    match skipSpace s with
    | [] => none
    | c :: rest =>
      if c = '"' then (readString rest).map fun (content, after) => (.string content, after)
      else if c = '[' then
        match skipSpace rest with
        | ']' :: after => some (.array [], after)
        | _ => (readItems fuel rest).map fun (items, after) => (.array items, after)
      else if c = '\x7b' then
        match skipSpace rest with
        | '\x7d' :: after => some (.object [], after)
        | _ => (readFields fuel rest).map fun (fields, after) => (.object fields, after)
      else if c = 't' then (Text.after? "rue" rest).map fun after => (.bool true, after)
      else if c = 'f' then (Text.after? "alse" rest).map fun after => (.bool false, after)
      else if c = 'n' then (Text.after? "ull" rest).map fun after => (.null, after)
      else (readNumeral (c :: rest)).map fun (n, after) => (.number n, after)

/-- Values with commas between them, up to the closing bracket. -/
def readItems : Nat → Text → Option (List Form × Text)
  | 0, _ => none
  | fuel + 1, s =>
    match readForm fuel s with
    | none => none
    | some (item, s) =>
      match skipSpace s with
      | ',' :: s => (readItems fuel s).map fun (items, after) => (item :: items, after)
      | ']' :: after => some ([item], after)
      | _ => none

/-- Keys and values with commas between them, up to the closing brace. -/
def readFields : Nat → Text → Option (List (Option Text × Form) × Text)
  | 0, _ => none
  | fuel + 1, s =>
    match skipSpace s with
    | '"' :: s =>
      match readString s with
      | none => none
      | some (key, s) =>
        match skipSpace s with
        | ':' :: s =>
          match readForm fuel s with
          | none => none
          | some (value, s) =>
            match skipSpace s with
            | ',' :: s => (readFields fuel s).map fun (fields, after) => ((key, value) :: fields, after)
            | '\x7d' :: after => some ([(key, value)], after)
            | _ => none
        | _ => none
    | _ => none

end

/-- A whole text as one value with space around it. -/
def Form.read? (s : Text) : Option Form :=
  match readForm (2 * s.length + 1) s with
  | some (form, after) => if (skipSpace after).isEmpty then some form else none
  | none => none

/-- The value of a whole text. -/
def read? (s : Text) : Option Json := (Form.read? s).bind Form.value?

end Crosscheck.Json
