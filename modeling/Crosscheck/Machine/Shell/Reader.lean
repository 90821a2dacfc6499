import Crosscheck.Machine.Shell.Command
import Crosscheck.Text.Lines
import Crosscheck.Text.WordChar
/-!
# Reading scripts

Scripts are cut into tokens first and then put together by precedence: pipes bind tightest, then `&&` and
`||`, then line ends and semicolons. A text that is no script gives nothing.
-/

namespace Crosscheck.Shell

/-- A token of a script. -/
inductive Token
  /-- A word on a line of the script. -/
  | word (line : Nat) (w : Word)
  /-- The number of a channel, right before a redirection. -/
  | channel (n : Nat)
  /-- A sign that joins commands or redirects a channel. -/
  | sign (s : Text)
  | newline
deriving DecidableEq

/-- A space or a tab. -/
def isGap (c : Char) : Bool := c == ' ' || c == '\t'

/-- Characters that end a word unless they are quoted. -/
def endsWord (c : Char) : Bool := isGap c || "\n;&|<>()".toList.contains c

/-- Characters that are parameters by themselves. -/
def isSpecialParameter (c : Char) : Bool := "?#@*$!-".toList.contains c || Text.isAsciiDigit c

/-- The text up to the closing character that belongs to the opening one before it, and the text
after it. Quotes and nested pairs are passed over. -/
def untilClosing (opening closing : Char) : Nat → Text → Option (Text × Text)
  | _, [] => none
  | depth, '\\' :: c :: s =>
    (untilClosing opening closing depth s).map fun (inner, after) => ('\\' :: c :: inner, after)
  | depth, c :: s =>
    if c = closing then
      match depth with
      | 0 => some ([], s)
      | depth + 1 =>
        (untilClosing opening closing depth s).map fun (inner, after) => (c :: inner, after)
    else
      (untilClosing opening closing (if c = opening then depth + 1 else depth) s).map
        fun (inner, after) => (c :: inner, after)

/-- The piece that a dollar sign starts and the text after it. -/
def dollarPiece (quoted : Bool) (s : Text) : Option (Piece × Text) :=
  match s with
  | '\x7b' :: inner => (untilClosing '\x7b' '\x7d' 0 inner).map fun (written, after) =>
      (.parameter written quoted, after)
  | '(' :: inner => (untilClosing '(' ')' 0 inner).map fun (script, after) =>
      if script.head? = some '(' && script.getLast? = some ')' then
        (.sum (script.drop 1).dropLast quoted, after)
      else (.output script quoted, after)
  | c :: after =>
    if isSpecialParameter c then some (.parameter [c] quoted, after)
    else
      let name := s.takeWhile Text.isAsciiWord
      if name.isEmpty then some (.text ['$'] quoted, s)
      else some (.parameter name quoted, s.drop name.length)
  | [] => some (.text ['$'] quoted, [])

/-- The pieces up to the closing double quote and the text after it. -/
def doubleQuoted : Nat → Text → Option (Word × Text)
  | 0, _ => none
  | bound + 1, s =>
    match s with
    | [] => none
    | '"' :: after => some ([], after)
    | '\\' :: c :: s =>
      let piece : Text := if "$\"\\".toList.contains c || c.toNat = 96 then [c]
        else if c = '\n' then [] else ['\\', c]
      (doubleQuoted bound s).map fun (w, after) => (.text piece true :: w, after)
    | '$' :: s =>
      match dollarPiece true s with
      | some (piece, s) => (doubleQuoted bound s).map fun (w, after) => (piece :: w, after)
      | none => none
    | c :: s =>
      if c.toNat = 96 then
        match untilClosing c c 0 s with
        | some (script, s) =>
          (doubleQuoted bound s).map fun (w, after) => (.output script true :: w, after)
        | none => none
      else (doubleQuoted bound s).map fun (w, after) => (.text [c] true :: w, after)

/-- The pieces of a word and the text after it. -/
def readWord : Nat → Text → Option (Word × Text)
  | 0, _ => none
  | bound + 1, s =>
    match s with
    | [] => some ([], [])
    | '\'' :: s =>
      match s.span (· ≠ '\'') with
      | (quoted, _ :: s) =>
        (readWord bound s).map fun (w, after) => (.text quoted true :: w, after)
      | (_, []) => none
    | '"' :: s =>
      match doubleQuoted (s.length + 1) s with
      | some (inner, s) =>
        (readWord bound s).map fun (w, after) => (.text [] true :: inner ++ w, after)
      | none => none
    | '\\' :: '\n' :: s => readWord bound s
    | '\\' :: c :: s => (readWord bound s).map fun (w, after) => (.text [c] true :: w, after)
    | '$' :: s =>
      match dollarPiece false s with
      | some (piece, s) => (readWord bound s).map fun (w, after) => (piece :: w, after)
      | none => none
    | c :: s =>
      if endsWord c then some ([], c :: s)
      else if c.toNat = 96 then
        match untilClosing c c 0 s with
        | some (script, s) =>
          (readWord bound s).map fun (w, after) => (.output script false :: w, after)
        | none => none
      else (readWord bound s).map fun (w, after) => (.text [c] false :: w, after)

/-- The word that a text is when blanks and signs do not end it. -/
def wholeWord : Nat → Text → Option Word
  | 0, _ => none
  | bound + 1, s =>
    match readWord (s.length + 1) s with
    | none => none
    | some (w, []) => some w
    | some (w, c :: s) => (wholeWord bound s).map fun rest => w ++ .text [c] false :: rest

/-- The word that a text is between double quotes; quotes in it stand for themselves. -/
def quotedWord (s : Text) : Option Word :=
  let closed := (s.flatMap fun c => if c = '"' then ['\\', c] else [c]) ++ ['"']
  (doubleQuoted (closed.length + 1) closed).map (·.1)

/-- The lines up to the one that is `stop`, as one text, and the lines after it. Tabs in front do not count
if `indented`. -/
def hereLines (stop : Text) (indented : Bool) : List Text → Text × List Text
  | [] => ([], [])
  | line :: rest =>
    let line := if indented then line.dropWhile (· = '\t') else line
    if line = stop then ([], rest)
    else
      let (inner, rest) := hereLines stop indented rest
      (line ++ '\n' :: inner, rest)

/-- What `<<` takes from the lines below: the word to be read, and the script without those lines. -/
def hereWord (s : Text) : Option (Word × Text) :=
  let (indented, s) := match s with
    | '-' :: s => (true, s)
    | s => (false, s)
  let s := s.dropWhile isGap
  match readWord (s.length + 1) s with
  | none => none
  | some (delimiter, after) =>
    let stop := delimiter.flatMap fun
      | .text t _ => t
      | _ => []
    let quoted := delimiter.any fun
      | .text _ quoted => quoted
      | _ => false
    let line := after.takeWhile (· ≠ '\n')
    let (inner, rest) := hereLines stop indented (Text.splitLines (after.drop (line.length + 1)))
    (if quoted then some [.text inner true] else quotedWord inner).map fun w =>
      (w, line ++ '\n' :: Text.joinLines rest)

/-- The longest sign at the front of a text. -/
def signAt? (s : Text) : Option Text :=
  (["&&", "||", ";;", ">>", ">&", "<&", "<<", ";", "&", "|", "(", ")", "<", ">"].map String.toList).find?
    fun sign : Text => sign.isPrefixOf s

/-- The tokens of a script. -/
def tokens : Nat → Nat → Text → Option (List Token)
  | 0, _, _ => none
  | bound + 1, line, s =>
    match s with
    | [] => some []
    | '\n' :: s => (tokens bound (line + 1) s).map (.newline :: ·)
    | '#' :: s => tokens bound line (s.dropWhile (· ≠ '\n'))
    | c :: rest =>
      if isGap c then tokens bound line rest
      else match signAt? s with
        | some sign =>
          if sign = "<<".toList then
            match hereWord (s.drop sign.length) with
            | some (w, s) => (tokens bound line s).map fun ts => .sign sign :: .word line w :: ts
            | none => none
          else (tokens bound line (s.drop sign.length)).map (.sign sign :: ·)
        | none =>
          let digits := s.takeWhile Text.isAsciiDigit
          let after := s.drop digits.length
          if !digits.isEmpty && (after.head? = some '<' || after.head? = some '>') then
            (tokens bound line after).map (.channel (Text.natOfDigits digits) :: ·)
          else match readWord (s.length + 1) s with
            | some (w, after) =>
              let lines := (s.take (s.length - after.length)).count '\n'
              (tokens bound (line + lines) after).map (.word line w :: ·)
            | none => none

/-- The text of a word that consists of nothing but unquoted text. -/
def bare? (w : Word) : Option Text :=
  w.foldr (fun piece acc =>
    match piece, acc with
    | .text s false, some rest => some (s ++ rest)
    | _, _ => none) (some [])

/-- Whether the tokens go on with a reserved word. -/
def startsWith (reserved : Text) : List Token → Bool
  | .word _ w :: _ => bare? w == some reserved
  | _ => false

/-- The tokens after a reserved word. -/
def expect (reserved : Text) (ts : List Token) : Option (List Token) :=
  if startsWith reserved ts then some (ts.drop 1) else none

/-- Words that end a list of commands. -/
def closers : List Text := ["then", "else", "elif", "fi", "do", "done", "esac", "\x7d"]

/-- Whether a list of commands ends here. -/
def atEnd : List Token → Bool
  | [] => true
  | .sign s :: _ => s == ")".toList || s == ";;".toList
  | .word _ w :: _ =>
    match bare? w with
    | some s => closers.contains s
    | none => false
  | _ => false

/-- The tokens after line ends. -/
def skipNewlines (ts : List Token) : List Token := ts.dropWhile (· = .newline)

/-- Whether the text can be the name of a variable. -/
def isName (s : Text) : Bool :=
  match s with
  | [] => false
  | c :: _ => !Text.isAsciiDigit c && s.all Text.isAsciiWord

/-- The name and the value of an assignment. -/
def assignment? (w : Word) : Option (Text × Word) :=
  let lead := w.takeWhile fun p => match p with
    | .text s false => s ≠ ['=']
    | _ => false
  match bare? lead, w.drop lead.length with
  | some name, _ :: value => if isName name then some (name, value) else none
  | _, _ => none

/-- The direction that a sign stands for, with the channel it means by itself. -/
def direction? (sign : Text) : Option (Direction × Nat) :=
  if sign = "<".toList then some (.read, 0)
  else if sign = ">".toList then some (.write, 1)
  else if sign = ">>".toList then some (.append, 1)
  else if sign = ">&".toList then some (.duplicate, 1)
  else if sign = "<&".toList then some (.duplicate, 0)
  else if sign = "<<".toList then some (.here, 0)
  else none

/-- A redirection and the tokens after it. -/
def redirection? : List Token → Option (Redirection × List Token)
  | .channel n :: .sign s :: .word _ target :: ts =>
    (direction? s).map fun (d, _) => (⟨n, d, target⟩, ts)
  | .sign s :: .word _ target :: ts => (direction? s).map fun (d, n) => (⟨n, d, target⟩, ts)
  | _ => none

/-- Redirections up to the first token that is none. -/
def redirections : Nat → List Token → List Redirection × List Token
  | 0, ts => ([], ts)
  | bound + 1, ts =>
    match redirection? ts with
    | some (r, ts) =>
      let (rs, ts) := redirections bound ts
      (r :: rs, ts)
    | none => ([], ts)

/-- The words and redirections of a simple command, and the tokens after it. -/
def simpleParts : Nat → List Token → Option (List Word × List Redirection × List Token)
  | 0, _ => none
  | bound + 1, ts =>
    match redirection? ts with
    | some (r, ts) => (simpleParts bound ts).map fun (ws, rs, ts) => (ws, r :: rs, ts)
    | none =>
      match ts with
      | .word _ w :: ts => (simpleParts bound ts).map fun (ws, rs, ts) => (w :: ws, rs, ts)
      | _ => some ([], [], ts)

/-- The assignment that a token is. -/
def assigns? : Token → Option (Text × Word)
  | .word _ w => assignment? w
  | _ => none

/-- The simple command that starts with the tokens. Assignments are those before the program. -/
def simple (ts : List Token) : Option (Command × List Token) :=
  let line := match ts with
    | .word n _ :: _ => n
    | _ => 1
  let leading := ts.takeWhile fun t => (assigns? t).isSome
  (simpleParts (ts.length + 1) (ts.drop leading.length)).map fun (words, rs, rest) =>
    (.simple line (leading.filterMap assigns?) words rs, rest)

/-- The words up to a line end or semicolon. -/
def wordsOf : List Token → List Word × List Token
  | .word _ w :: ts =>
    let (ws, ts) := wordsOf ts
    (w :: ws, ts)
  | ts => ([], ts)

/-- The tokens after a semicolon or line ends, if there are any. -/
def skipSeparator (ts : List Token) : List Token :=
  match ts with
  | .sign s :: rest => if s = ";".toList then skipNewlines rest else ts
  | _ => skipNewlines ts

/-- The patterns of an arm of a selection, with bars between them, up to the closing parenthesis. -/
def armPatterns : List Token → Option (List Word × List Token)
  | .word _ w :: .sign s :: ts =>
    if s = [')'] then some ([w], ts)
    else if s = ['|'] then (armPatterns ts).map fun (ws, ts) => (w :: ws, ts)
    else none
  | _ => none

mutual

/-- Commands in sequence. -/
def readList : Nat → List Token → Option (Command × List Token)
  | 0, _ => none
  | bound + 1, ts =>
    let ts := skipNewlines ts
    if atEnd ts then some (.nothing, ts)
    else match readAndOr bound ts with
      | none => none
      | some (first, rest) =>
        match rest with
        | .newline :: rest => (readList bound rest).map fun (c, ts) => (.sequence first c, ts)
        | .sign s :: after =>
          if s = ";".toList || s = "&".toList then
            (readList bound after).map fun (c, ts) => (.sequence first c, ts)
          else some (first, rest)
        | _ => some (first, rest)

/-- Commands joined by success and failure. -/
def readAndOr : Nat → List Token → Option (Command × List Token)
  | 0, _ => none
  | bound + 1, ts =>
    match readPipe bound ts with
    | none => none
    | some (first, rest) => readAndOrRest bound first rest

/-- What success or failure of `first` leads to. -/
def readAndOrRest : Nat → Command → List Token → Option (Command × List Token)
  | 0, _, _ => none
  | bound + 1, first, ts =>
    match ts with
    | .sign s :: rest =>
      if s = "&&".toList then
        match readPipe bound (skipNewlines rest) with
        | some (second, rest) => readAndOrRest bound (.ifSucceeds first second) rest
        | none => none
      else if s = "||".toList then
        match readPipe bound (skipNewlines rest) with
        | some (second, rest) => readAndOrRest bound (.ifFails first second) rest
        | none => none
      else some (first, ts)
    | _ => some (first, ts)

/-- Commands joined by pipes, perhaps negated. -/
def readPipe : Nat → List Token → Option (Command × List Token)
  | 0, _ => none
  | bound + 1, ts =>
    if startsWith "!" ts then (readPipe bound (ts.drop 1)).map fun (c, ts) => (.negated c, ts)
    else match readCommand bound ts with
      | none => none
      | some (first, rest) =>
        match rest with
        | .sign s :: after =>
          if s = "|".toList then
            (readPipe bound (skipNewlines after)).map fun (second, ts) => (.pipe first second, ts)
          else some (first, rest)
        | _ => some (first, rest)

/-- One command with its redirections. -/
def readCommand : Nat → List Token → Option (Command × List Token)
  | 0, _ => none
  | bound + 1, ts =>
    if startsWith "if" ts then withRedirections (readIf bound (ts.drop 1))
    else if startsWith "while" ts then withRedirections (readLoop bound true (ts.drop 1))
    else if startsWith "until" ts then withRedirections (readLoop bound false (ts.drop 1))
    else if startsWith "for" ts then withRedirections (readFor bound (ts.drop 1))
    else if startsWith "case" ts then
      match ts with
      | _ :: .word _ subject :: rest =>
        match expect "in" (skipNewlines rest) with
        | some rest => withRedirections (readArms bound subject (skipNewlines rest))
        | none => none
      | _ => none
    else if startsWith "\x7b" ts then
      match readList bound (ts.drop 1) with
      | some (c, rest) => withRedirections ((expect "\x7d" rest).map fun ts => (c, ts))
      | none => none
    else match ts with
      | .sign s :: rest =>
        if s = "(".toList then
          match readList bound rest with
          | some (c, .sign t :: rest) =>
            if t = ")".toList then withRedirections (some (.subshell c, rest)) else none
          | _ => none
        else if (direction? s).isSome then simple ts
        else none
      | .newline :: _ => none
      | [] => none
      | .word _ w :: .sign s :: .sign t :: rest =>
        match bare? w with
        | some name =>
          if isName name && s = ['('] && t = [')'] then
            (readCommand bound (skipNewlines rest)).map fun (body, ts) => (.define name body, ts)
          else simple ts
        | none => simple ts
      | _ => simple ts

/-- Redirections after a compound command. -/
def withRedirections : Option (Command × List Token) → Option (Command × List Token)
  | none => none
  | some (c, ts) =>
    match redirections ts.length ts with
    | ([], ts) => some (c, ts)
    | (rs, ts) => some (.redirected c rs, ts)

/-- A choice, after its first word. -/
def readIf : Nat → List Token → Option (Command × List Token)
  | 0, _ => none
  | bound + 1, ts =>
    match readList bound ts with
    | none => none
    | some (condition, rest) =>
      match expect "then" rest with
      | none => none
      | some rest =>
        match readList bound rest with
        | none => none
        | some (consequent, rest) =>
          if startsWith "elif" rest then
            (readIf bound (rest.drop 1)).map fun (alternative, ts) =>
              (.choose condition consequent alternative, ts)
          else if startsWith "else" rest then
            match readList bound (rest.drop 1) with
            | none => none
            | some (alternative, rest) =>
              (expect "fi" rest).map fun ts => (.choose condition consequent alternative, ts)
          else (expect "fi" rest).map fun ts => (.choose condition consequent .nothing, ts)

/-- A loop, after its first word. -/
def readLoop : Nat → Bool → List Token → Option (Command × List Token)
  | 0, _, _ => none
  | bound + 1, whileTrue, ts =>
    match readList bound ts with
    | none => none
    | some (condition, rest) =>
      match expect "do" rest with
      | none => none
      | some rest =>
        match readList bound rest with
        | none => none
        | some (body, rest) =>
          (expect "done" rest).map fun ts => (.loop whileTrue condition body, ts)

/-- The arms of a selection, up to its last word. -/
def readArms : Nat → Word → List Token → Option (Command × List Token)
  | 0, _, _ => none
  | bound + 1, subject, ts =>
    if startsWith "esac" ts then some (.nothing, ts.drop 1)
    else
      let ts := match ts with
        | .sign s :: rest => if s = ['('] then rest else ts
        | _ => ts
      match armPatterns ts with
      | none => none
      | some (patterns, ts) =>
        match readList bound ts with
        | none => none
        | some (body, rest) =>
          let rest := match rest with
            | .sign s :: after => if s = ";;".toList then after else rest
            | _ => rest
          (readArms bound subject (skipNewlines rest)).map fun (otherwise, ts) =>
            (.select subject patterns body otherwise, ts)

/-- A loop over words, after its first word. -/
def readFor : Nat → List Token → Option (Command × List Token)
  | 0, _ => none
  | bound + 1, ts =>
    match ts with
    | .word _ w :: rest =>
      match bare? w with
      | none => none
      | some name =>
        let after := skipNewlines rest
        let (words, rest) := if startsWith "in" after then
            let (ws, rest) := wordsOf (after.drop 1)
            (some ws, rest)
          else (none, rest)
        match expect "do" (skipSeparator rest) with
        | none => none
        | some rest =>
          match readList bound rest with
          | none => none
          | some (body, rest) =>
            (expect "done" rest).map fun ts => (.forEach name words body, ts)
    | _ => none

end

/-- The command that a whole script is. -/
def read? (script : Text) : Option Command :=
  match tokens (script.length + 1) 1 script with
  | none => none
  | some ts =>
    match readList (8 * ts.length + 8) ts with
    | some (c, []) => some c
    | _ => none

end Crosscheck.Shell
