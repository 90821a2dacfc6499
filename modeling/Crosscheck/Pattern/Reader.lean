import Crosscheck.Pattern.Basic
/-!
# Reading patterns

The written form of patterns: alternatives, repetitions with lazy and counted forms, groups with and
without names, flags, nested character classes with set operations, escapes and anchors. There is no
look-around and no reference back to a group. Flags hold up to the end of the group that sets them.
-/

namespace Crosscheck.Pattern

/-- Why a text is not a pattern. -/
inductive Defect
  | unclosedGroup | unopenedGroup | nothingToRepeat | badCount | badEscape | badReference
  | unclosedClass | badRange | badClassItem | badFlag | badGroupName | repeatedGroupName
  | lookAround | unknownProperty | notUnicode | tooLarge | tooDeep
deriving DecidableEq

namespace Defect

def message : Defect → Text
  | .unclosedGroup => "unclosed group"
  | .unopenedGroup => "unopened group"
  | .nothingToRepeat => "nothing to repeat"
  | .badCount => "malformed count of a repetition"
  | .badEscape => "unknown or unfinished escape"
  | .badReference => "references back to a group are not supported"
  | .unclosedClass => "unclosed character class"
  | .badRange => "malformed range of characters"
  | .badClassItem => "not allowed in a character class"
  | .badFlag => "malformed flags"
  | .badGroupName => "malformed name of a group"
  | .repeatedGroupName => "repeated name of a group"
  | .lookAround => "look-around is not supported"
  | .unknownProperty => "unknown property of characters"
  | .notUnicode => "could match something other than characters"
  | .tooLarge => "too large"
  | .tooDeep => "too deeply nested"

end Defect

/-- The flags in force. -/
structure Flags where
  caseless : Bool
  multiline : Bool
  dotAll : Bool
  swapGreed : Bool
  unicode : Bool
  verbose : Bool
  returns : Bool

/-- The flags at the start of a pattern. -/
def Flags.initial : Flags := ⟨false, false, false, false, true, false, false⟩

/-- How far reading has come. -/
structure Progress where
  rest : Text
  flags : Flags
  nextGroup : Nat
  names : List (Text × Nat)
  /-- Whether the text ended inside a comment. -/
  openComment : Bool

/-- A step of reading. -/
abbrev Read := StateT Progress (Except Defect)

namespace Read

def rest : Read Text := return (← get).rest

def flags : Read Flags := return (← get).flags

def setRest (s : Text) : Read Unit := modify fun p => { p with rest := s }

def setFlags (f : Flags) : Read Unit := modify fun p => { p with flags := f }

/-- The text after blanks and comments, and whether it ended inside a comment. -/
def dropVerbose : Bool → Text → Text × Bool
  | inComment, [] => ([], inComment)
  | true, c :: s => if c = '\n' then dropVerbose false s else dropVerbose true s
  | false, c :: s =>
    if Text.isBlank c then dropVerbose false s
    else if c = '#' then dropVerbose true s
    else (c :: s, false)

/-- Pass over blanks and comments if the flags say so. -/
def skipVerbose : Read Unit := do
  if (← flags).verbose then
    let (s, inComment) := dropVerbose false (← rest)
    modify fun p => { p with rest := s, openComment := p.openComment || inComment }

/-- Pass over one character and over blanks and comments after it. -/
def advance : Read Unit := do
  setRest ((← rest).drop 1)
  skipVerbose

/-- Pass over `s` if the text goes on with it. -/
def accept (s : Text) : Read Bool := do
  match Text.after? s (← rest) with
  | some after => do
    setRest after
    return true
  | none => return false

end Read

open Read

/-- The part of a pattern that one escape or character stands for. -/
inductive Atom
  | char (c : Char)
  | set (s : CharSet)
  | anchor (a : Anchor)

/-- The characters that a pattern needs in an escape to stand for themselves. -/
def specialChars : Text := "\\.+*?()|[]\x7b\x7d^$#&-~"

/-- Whether a backslash makes the character stand for itself. -/
def isEscapable (c : Char) : Bool :=
  specialChars.contains c ||
    (c.toNat < 0x80 && !Text.isAsciiDigit c && !(Text.isAsciiWord c && c ≠ '_') && c ≠ '<' && c ≠ '>')

/-- The pattern text that matches just this text. -/
def escape (s : Text) : Text :=
  s.flatMap fun c => if specialChars.contains c then ['\\', c] else [c]

/-- ASCII digits. -/
def asciiDigits : CharSet := .range '0' '9'

/-- ASCII word characters. -/
def asciiWord : CharSet := .unions [.range 'a' 'z', .range 'A' 'Z', asciiDigits, .one '_']

/-- ASCII blanks. -/
def asciiBlank : CharSet := .unions [.range '\t' '\r', .one ' ']

/-- The value of a hexadecimal digit. -/
def hexValue? (c : Char) : Option Nat :=
  let n := c.toNat
  if 48 ≤ n ∧ n ≤ 57 then some (n - 48)
  else if 97 ≤ n ∧ n ≤ 102 then some (n - 87)
  else if 65 ≤ n ∧ n ≤ 70 then some (n - 55)
  else none

/-- The character with a number written in hexadecimal. -/
def charOfHex (digits : List Nat) : Read Char := do
  let n := digits.foldl (fun n d => 16 * n + d) 0
  if n.isValidChar then return Char.ofNat n else throw .badEscape

/-- Hexadecimal digits, exactly `n` of them. -/
def readHexDigits : Nat → Read (List Nat)
  | 0 => return []
  | n + 1 => do
    match (← rest) with
    | [] => throw .badEscape
    | c :: _ =>
      match hexValue? c with
      | none => throw .badEscape
      | some d => do
        advance
        return d :: (← readHexDigits n)

/-- Hexadecimal digits up to a closing brace; `bound` limits their number. -/
def readBracedHex : Nat → Read (List Nat)
  | 0 => throw .badEscape
  | bound + 1 => do
    match (← rest) with
    | [] => throw .badEscape
    | '\x7d' :: _ => do
      advance
      return []
    | c :: _ =>
      match hexValue? c with
      | none => throw .badEscape
      | some d => do
        advance
        return d :: (← readBracedHex bound)

/-- A character by its number, after the letter that says how many digits there are. Two digits alone
name a byte outside Unicode, and only the ASCII ones are characters. -/
def readHex (count : Nat) : Read Char := do
  skipVerbose
  match (← rest) with
  | '\x7b' :: s => do
    advance
    let digits ← readBracedHex (s.length + 1)
    if digits.isEmpty then throw .badEscape
    charOfHex digits
  | _ => do
    let c ← charOfHex (← readHexDigits count)
    if count = 2 ∧ 0x80 ≤ c.toNat ∧ !(← flags).unicode then throw .notUnicode
    return c

/-- The conditions that can be written in braces after the escape of a word's edge. -/
def namedEdge? (name : Text) : Option Anchor :=
  if name = "start".toList then some .wordStart
  else if name = "end".toList then some .wordEnd
  else if name = "start-half".toList then some .wordStartHalf
  else if name = "end-half".toList then some .wordEndHalf
  else none

/-- Whether the character may stand in the name of a condition. -/
def isEdgeNameChar (c : Char) : Bool :=
  (Text.isAsciiWord c && !Text.isAsciiDigit c && c ≠ '_') || c = '-'

/-- The name of a condition up to its closing brace. -/
def readEdgeName : Nat → Read Text
  | 0 => throw .badEscape
  | bound + 1 => do
    match (← rest) with
    | [] => throw .badEscape
    | c :: _ =>
      if isEdgeNameChar c then do
        advance
        return c :: (← readEdgeName bound)
      else if c = '\x7d' then do
        setRest ((← rest).drop 1)
        return []
      else throw .badEscape

/-- The edge of a word, with a condition in braces if there is one. Braces with anything but a name
are left alone: they count rounds. -/
def readEdge : Read Atom := do
  match (← rest) with
  | '\x7b' :: _ => do
    let before ← get
    advance
    match (← rest) with
    | [] => throw .badEscape
    | c :: s =>
      if isEdgeNameChar c then do
        match namedEdge? (← readEdgeName (s.length + 2)) with
        | some a => return .anchor a
        | none => throw .badEscape
      else do
        modify fun _ => before
        return .anchor .wordEdge
  | _ => return .anchor .wordEdge

/-- A set of characters or its complement; outside Unicode a complement would hold parts of
characters. -/
def signedSet (negated : Bool) (s : CharSet) : Read Atom := do
  if negated then
    if (← flags).unicode then return .set (.complement s) else throw .notUnicode
  else return .set s

/-- What an escape stands for, after its backslash. The tables behind `\p` and `\P` are not at hand, so a pattern
with a Unicode property is refused, whatever the property is. -/
def readEscape : Read Atom := do
  match (← rest) with
  | [] => throw .badEscape
  | c :: s => do
    setRest s
    let unicode := (← flags).unicode
    if Text.isAsciiDigit c then throw .badReference
    else if c = 'x' then return .char (← readHex 2)
    else if c = 'u' then return .char (← readHex 4)
    else if c = 'U' then return .char (← readHex 8)
    else if c = 'd' ∨ c = 'D' then signedSet (c = 'D') (if unicode then .digit else asciiDigits)
    else if c = 's' ∨ c = 'S' then signedSet (c = 'S') (if unicode then .blank else asciiBlank)
    else if c = 'w' ∨ c = 'W' then signedSet (c = 'W') (if unicode then .word else asciiWord)
    else if c = 'p' ∨ c = 'P' then throw .unknownProperty
    else if isEscapable c then return .char c
    else if c = 'a' then return .char '\x07'
    else if c = 'f' then return .char '\x0c'
    else if c = 't' then return .char '\t'
    else if c = 'n' then return .char '\n'
    else if c = 'r' then return .char '\r'
    else if c = 'v' then return .char '\x0b'
    else if c = 'A' then return .anchor .textStart
    else if c = 'z' then return .anchor .textEnd
    else if c = 'b' then readEdge
    else if c = 'B' then return .anchor .notWordEdge
    else if c = '<' then return .anchor .wordStart
    else if c = '>' then return .anchor .wordEnd
    else throw .badEscape

/-- The set with the case variants that the flags ask for. -/
def caselessSet (s : CharSet) : Read CharSet := do
  let f ← flags
  if f.caseless then return if f.unicode then .variants s else .asciiVariants s
  else return s

/-- A single character under the flags. -/
def charPattern (c : Char) : Read Pattern := do
  let f ← flags
  if f.caseless then
    let alone := if f.unicode then (Text.caseVariants c).all (· = c) else CharSet.otherCase c = c
    if alone then return .char c else return .set (← caselessSet (.one c))
  else return .char c

/-- An anchor under the flags. -/
def anchorPattern (a : Anchor) : Read Pattern := do
  return .anchor a (if (← flags).unicode then .word else asciiWord)

/-- The classes that can be named inside a class. -/
def namedClass? (name : Text) : Option CharSet :=
  let upper := CharSet.range 'A' 'Z'
  let lower := CharSet.range 'a' 'z'
  let table : List (String × CharSet) := [
    ("alnum", .unions [asciiDigits, upper, lower]), ("alpha", .union upper lower),
    ("ascii", .range '\x00' '\x7f'), ("blank", .union (.one '\t') (.one ' ')),
    ("cntrl", .union (.range '\x00' '\x1f') (.one '\x7f')), ("digit", asciiDigits),
    ("graph", .range '!' '~'), ("lower", lower), ("print", .range ' ' '~'),
    ("punct", .unions [.range '!' '/', .range ':' '@', .range '[' (Char.ofNat 96),
      .range '\x7b' '~']),
    ("space", asciiBlank), ("upper", upper), ("word", asciiWord),
    ("xdigit", .unions [asciiDigits, .range 'A' 'F', .range 'a' 'f'])]
  (table.find? fun entry => entry.1.toList = name).map (·.2)

/-- A named class such as `[:alpha:]` and the text after it, if there is one right here. -/
def namedClassAt? (s : Text) : Option (CharSet × Text) :=
  match Text.after? "[:" s with
  | none => none
  | some s =>
    let (negated, s) := match s with
      | '^' :: s => (true, s)
      | s => (false, s)
    let name := s.takeWhile (· ≠ ':')
    match Text.after? ":]" (s.drop name.length), namedClass? name with
    | some after, some members =>
      some (if negated then .complement members else members, after)
    | _, _ => none

/-- One item of a class: a character or an escape. -/
def readClassAtom : Read Atom := do
  match (← rest) with
  | [] => throw .unclosedClass
  | '\\' :: s => do
    setRest s
    readEscape
  | c :: s => do
    setRest s
    return .char c

/-- A character as a member of a class; outside Unicode it has to be an ASCII one. -/
def classMember (c : Char) : Read Char := do
  if 0x80 ≤ c.toNat ∧ !(← flags).unicode then throw .notUnicode else return c

/-- The character that one end of a range has to be. -/
def rangeEnd : Atom → Read Char
  | .char c => classMember c
  | _ => throw .badRange

/-- The set that an item of a class stands for. -/
def itemSet : Atom → Read CharSet
  | .char c => return .one (← classMember c)
  | .set s => return s
  | .anchor _ => throw .badClassItem

/-- The text ahead after blanks and comments, if those are passed over, once a character is left
out. -/
def peekAfter : Read Text := do
  let s := (← rest).drop 1
  return if (← flags).verbose then (dropVerbose false s).1 else s

/-- An item of a class, or a range between two of them. -/
def readClassRange : Read CharSet := do
  let first ← readClassAtom
  skipVerbose
  match (← rest) with
  | [] => throw .unclosedClass
  | c :: _ =>
    let ahead := (← peekAfter).head?
    if c ≠ '-' ∨ ahead = some ']' ∨ ahead = some '-' then itemSet first
    else do
      advance
      if (← rest).isEmpty then throw .unclosedClass
      let last ← readClassAtom
      let low ← rangeEnd first
      let high ← rangeEnd last
      if low.toNat ≤ high.toNat then return .range low high else throw .badRange

/-- An operation between two parts of a class. -/
inductive SetOperation
  | inter | minus | difference

/-- The result of an operation. -/
def SetOperation.apply : SetOperation → CharSet → CharSet → CharSet
  | .inter, s, t => .inter s t
  | .minus, s, t => s.minus t
  | .difference, s, t => .union (s.minus t) (t.minus s)

/-- A part of a pattern and how deeply the parts inside it are nested. -/
structure Nested (α : Type) where
  value : α
  depth : Nat
deriving DecidableEq

namespace Nested

/-- A part with no parts inside. -/
def flat (a : α) : Nested α := ⟨a, 0⟩

/-- The depth of several parts side by side: they make up a part of their own unless there is only
one. -/
def depthOf : List Nat → Nat
  | [] => 0
  | [d] => d
  | d :: e :: rest => (e :: rest).foldl max d + 1

/-- Several parts as one. -/
def join (f : List α → α) (parts : List (Nested α)) : Nested α :=
  ⟨f (parts.map (·.value)), depthOf (parts.map (·.depth))⟩

/-- A part inside another one. -/
def wrap (f : α → β) (part : Nested α) : Nested β := ⟨f part.value, part.depth + 1⟩

end Nested

/-- How deeply parts may be nested. -/
def maxDepth : Nat := 250

/-- The part of a class read so far, joined to what stands before the pending operation. -/
def closeOperation (pending : Option (SetOperation × Nested CharSet))
    (items : List (Nested CharSet)) : Read (Nested CharSet) := do
  let right := Nested.join CharSet.unions items.reverse
  match pending with
  | none => return right
  | some (op, left) =>
    return ⟨op.apply (← caselessSet left.value) (← caselessSet right.value),
      max left.depth right.depth + 1⟩

/-- Hyphens that stand for themselves at the start of a class. -/
def readLeadingHyphens : Nat → Read (List CharSet)
  | 0 => return []
  | bound + 1 => do
    match (← rest) with
    | [] => throw .unclosedClass
    | '-' :: _ => do
      advance
      return .one '-' :: (← readLeadingHyphens bound)
    | _ => return []

mutual

/-- A class, after its opening bracket. Outside Unicode it may not hold anything beyond ASCII. -/
def readClass : Nat → Read (Nested CharSet)
  | 0 => throw .unclosedClass
  | bound + 1 => do
    skipVerbose
    let negated := (← rest).head? = some '^'
    if negated then advance
    let hyphens ← readLeadingHyphens ((← rest).length + 1)
    let bracket := hyphens.isEmpty && (← rest).head? = some ']'
    if bracket then advance
    let items := if bracket then [CharSet.one ']'] else hyphens
    let inside ← readClassItems bound none (items.map .flat)
    let members ← caselessSet inside.value
    let members := if negated then .complement members else members
    if !(← flags).unicode && members.has '\x80' then throw .notUnicode
    return ⟨members, inside.depth + 1⟩

/-- The items of a class up to its closing bracket; `items` holds those read since the pending
operation, the latest first. -/
def readClassItems : Nat → Option (SetOperation × Nested CharSet) → List (Nested CharSet) →
    Read (Nested CharSet)
  | 0, _, _ => throw .unclosedClass
  | bound + 1, pending, items => do
    skipVerbose
    match (← rest) with
    | [] => throw .unclosedClass
    | ']' :: s => do
      setRest s
      closeOperation pending items
    | '[' :: s => do
      match namedClassAt? ('[' :: s) with
      | some (named, after) => do
        setRest after
        readClassItems bound pending (.flat named :: items)
      | none => do
        setRest s
        let inner ← readClass bound
        readClassItems bound pending (inner :: items)
    | '&' :: '&' :: s => do
      setRest s
      readClassItems bound (some (.inter, ← closeOperation pending items)) []
    | '-' :: '-' :: s => do
      setRest s
      readClassItems bound (some (.minus, ← closeOperation pending items)) []
    | '~' :: '~' :: s => do
      setRest s
      readClassItems bound (some (.difference, ← closeOperation pending items)) []
    | _ => do
      let item ← readClassRange
      readClassItems bound pending (.flat item :: items)

end

/-- Whether the character may stand in the name of a group. -/
def isGroupNameChar (first : Bool) (c : Char) : Bool :=
  if first then c = '_' || (Text.isWord c && !Text.isDigit c)
  else c = '_' || c = '.' || c = '[' || c = ']' || Text.isWord c

/-- The name of a group, after its opening bracket. -/
def readGroupName : Read Text := do
  let s ← rest
  let name := s.takeWhile (· ≠ '>')
  match s.drop name.length with
  | [] => throw .badGroupName
  | _ :: after => do
    match name with
    | [] => throw .badGroupName
    | c :: cs =>
      if isGroupNameChar true c && cs.all (isGroupNameChar false) then do
        if (← get).names.any (·.1 = name) then throw .repeatedGroupName
        setRest after
        return name
      else throw .badGroupName

/-- Set the flag with a letter. -/
def Flags.put? (f : Flags) (on : Bool) (c : Char) : Option Flags :=
  if c = 'i' then some { f with caseless := on }
  else if c = 'm' then some { f with multiline := on }
  else if c = 's' then some { f with dotAll := on }
  else if c = 'U' then some { f with swapGreed := on }
  else if c = 'u' then some { f with unicode := on }
  else if c = 'x' then some { f with verbose := on }
  else if c = 'R' then some { f with returns := on }
  else none

/-- Read flags up to a colon or a closing parenthesis: the flags, the character that ended them, how
many there were, and the text after it. A flag may be given once; those after a hyphen are cleared. -/
def readFlagsFrom (on : Bool) (seen : List Char) (dangling : Bool) (f : Flags) :
    Text → Except Defect (Flags × Char × Nat × Text)
  | [] => .error .badFlag
  | c :: s =>
    if c = ':' ∨ c = ')' then
      if dangling then .error .badFlag else .ok (f, c, seen.length, s)
    else if c = '-' then if on then readFlagsFrom false seen true f s else .error .badFlag
    else if seen.contains c then .error .badFlag
    else match f.put? on c with
      | some f => readFlagsFrom on (c :: seen) false f s
      | none => .error .badFlag

/-- A decimal count with blanks around it. -/
def readCount : Read Nat := do
  setRest ((← rest).dropWhile Text.isBlank)
  let digits ← readDigits ((← rest).length)
  setRest ((← rest).dropWhile Text.isBlank)
  let n := Text.natOfDigits digits
  if digits.isEmpty || 4294967296 ≤ n then throw .badCount else return n
where
  /-- Decimal digits, with blanks and comments between them passed over if the flags say so. -/
  readDigits : Nat → Read Text
    | 0 => return []
    | bound + 1 => do
      match (← rest) with
      | [] => return []
      | c :: _ =>
        if Text.isAsciiDigit c then do
          advance
          return c :: (← readDigits bound)
        else return []

/-- Whether a repetition prefers more rounds, given whether a question mark follows. -/
def greedyUnless (lazy : Bool) : Read Bool := do
  return lazy == (← flags).swapGreed

/-- A repetition in braces, after the opening one. -/
def readCounted (p : Nested Pattern) : Read (Nested Pattern) := do
  skipVerbose
  if (← rest).isEmpty then throw .badCount
  let least ← readCount
  let most ← match (← rest) with
    | ',' :: _ => do
      advance
      match (← rest) with
      | [] => throw .badCount
      | '\x7d' :: _ => pure none
      | _ => pure (some (← readCount))
    | _ => pure (some least)
  match (← rest) with
  | '\x7d' :: _ => do
    advance
    let lazy ← accept ['?']
    if most.any (· < least) then throw .badCount
    let greedy ← greedyUnless lazy
    return p.wrap fun p => .rounds p least most greedy
  | _ => throw .badCount

/-- A repetition by one sign, after that sign. -/
def readRounds (p : Nested Pattern) (sign : Char) : Read (Nested Pattern) := do
  let lazy ← accept ['?']
  let greedy ← greedyUnless lazy
  let least := if sign = '+' then 1 else 0
  let most := if sign = '?' then some 1 else none
  return p.wrap fun p => .rounds p least most greedy

/-- What a single character of the text stands for. -/
def readAtom : Read Pattern := do
  match (← rest) with
  | [] => return .empty
  | c :: s => do
    setRest s
    let f ← flags
    if c = '\\' then
      match (← readEscape) with
      | .char d => charPattern d
      | .set t => return .set t
      | .anchor a => anchorPattern a
    else if c = '.' then
      if !f.unicode then throw .notUnicode
      else if f.dotAll then return .set .all
      else if f.returns then return .set (.complement (.union (.one '\n') (.one '\r')))
      else return .set (.complement (.one '\n'))
    else if c = '^' then
      anchorPattern (if !f.multiline then .textStart
        else if f.returns then .returnLineStart else .lineStart)
    else if c = '$' then
      anchorPattern (if !f.multiline then .textEnd
        else if f.returns then .returnLineEnd else .lineEnd)
    else charPattern c

/-- Whether a group tests what lies around a place. -/
def isLookAround (s : Text) : Bool :=
  ["?=", "?!", "?<=", "?<!"].any fun lead : String => lead.toList.isPrefixOf s

/-- A sequence of parts, the latest first, with nothing for flags. -/
def sequence (items : List (Option (Nested Pattern))) : Nested Pattern :=
  ⟨chain (items.reverse.filterMap fun item => item.map (·.value)),
    Nested.depthOf (items.map fun item => (item.map (·.depth)).getD 0)⟩

mutual

/-- Alternatives up to a closing parenthesis or the end. -/
def readAlternatives : Nat → Read (List (Nested Pattern))
  | 0 => throw .tooLarge
  | bound + 1 => do
    let first ← readItems bound []
    match (← rest) with
    | '|' :: s => do
      setRest s
      return first :: (← readAlternatives bound)
    | _ => return [first]

/-- A sequence; `items` holds what was read so far, the latest first, with nothing for flags. -/
def readItems : Nat → List (Option (Nested Pattern)) → Read (Nested Pattern)
  | 0, _ => throw .tooLarge
  | bound + 1, items => do
    skipVerbose
    match (← rest) with
    | [] => return sequence items
    | c :: s =>
      if c = ')' ∨ c = '|' then return sequence items
      else if c = '(' then do
        setRest s
        let item ← readGroup bound
        readItems bound (item :: items)
      else if c = '[' then do
        setRest s
        let members ← readClass (2 * s.length + 2)
        readItems bound (some ⟨.set members.value, members.depth⟩ :: items)
      else if c = '*' ∨ c = '+' ∨ c = '?' then
        match items with
        | some p :: before => do
          setRest s
          let item ← readRounds p c
          readItems bound (some item :: before)
        | _ => throw .nothingToRepeat
      else if c = '\x7b' then
        match items with
        | some p :: before => do
          setRest s
          let item ← readCounted p
          readItems bound (some item :: before)
        | _ => throw .nothingToRepeat
      else do
        let item ← readAtom
        readItems bound (some (.flat item) :: items)

/-- A group, or flags for the rest of the group around it, after the opening parenthesis. -/
def readGroup : Nat → Read (Option (Nested Pattern))
  | 0 => throw .tooLarge
  | bound + 1 => do
    skipVerbose
    if isLookAround (← rest) then throw .lookAround
    let outer ← flags
    let named ← if (← accept "?P<") then pure true else accept "?<"
    if named then do
      let name ← readGroupName
      let index := (← get).nextGroup
      modify fun p => { p with nextGroup := index + 1, names := (name, index) :: p.names }
      return some ((← readInside bound outer).wrap (.group index))
    else if (← accept "?") then do
      let (f, ending, count, after) ← readFlagsFrom true [] false outer (← rest)
      setRest after
      setFlags f
      if ending = ')' then do
        if count = 0 then throw .nothingToRepeat
        return none
      else return some ((← readInside bound outer).wrap id)
    else do
      let index := (← get).nextGroup
      modify fun p => { p with nextGroup := index + 1 }
      return some ((← readInside bound outer).wrap (.group index))

/-- The inside of a group and its closing parenthesis; the flags `outer` come back into force. -/
def readInside : Nat → Flags → Read (Nested Pattern)
  | 0, _ => throw .tooLarge
  | bound + 1, outer => do
    let alternatives ← readAlternatives bound
    match (← rest) with
    | ')' :: s => do
      setRest s
      setFlags outer
      return .join choice alternatives
    | _ => throw .unclosedGroup

end

/-- About how many bytes a set takes in a compiled pattern. The number that the limit really applies to depends
on how ranges of characters share their bytes; this is an estimate of its order. -/
def setRoom : CharSet → Nat
  | .word => 48000
  | .digit => 3000
  | .blank => 600
  | .table ranges => 64 * ranges.length
  | .complement s => setRoom s + 400
  | .union s t => setRoom s + setRoom t
  | .inter s t => setRoom s + setRoom t
  | .variants s => 2 * setRoom s
  | .asciiVariants s => 2 * setRoom s
  | .none => 32
  | .range a b => if b.toNat < 0x80 then 32 else 64 + (b.toNat - a.toNat) / 4096

/-- About how many bytes a compiled pattern takes, by the same estimate. -/
def room : Pattern → Nat
  | .empty => 0
  | .char _ => 32
  | .set s => setRoom s
  | .anchor _ _ => 32
  | .seq p q => p.room + q.room
  | .alt p q => p.room + q.room + 32
  | .group _ p => p.room + 64
  | .rounds p least most _ => (p.room + 32) * max 1 (most.getD least)

/-- The most bytes that a compiled pattern may take. As the room is an estimate, patterns near the limit can be
on the wrong side of it. -/
def maxRoom : Nat := 10 * 1024 * 1024

/-- What reading a whole text gives: the pattern and where reading has come to. -/
def readWhole (s : Text) : Except Defect (Nested Pattern × Progress) := do
  let (alternatives, progress) ←
    (readAlternatives (4 * s.length + 4)).run ⟨s, .initial, 1, [], false⟩
  let p := Nested.join choice alternatives
  if !progress.rest.isEmpty then .error .unopenedGroup
  else if maxDepth < p.depth then .error .tooDeep
  else if maxRoom < p.value.room then .error .tooLarge
  else .ok (p, progress)

end Crosscheck.Pattern

namespace Crosscheck.Regex

/-- The regular expression that a text spells. -/
def read (s : Text) : Except Pattern.Defect Regex := do
  let (pattern, progress) ← Pattern.readWhole s
  return ⟨pattern.value, progress.names⟩

end Crosscheck.Regex
