import Crosscheck.Machine.Tools.Printing
import Crosscheck.Pattern.Reader
import Crosscheck.Pattern.Template
import Crosscheck.Text.Lines
/-!
# Filters

Tools that read texts and write what they make of them.
-/

namespace Crosscheck.Tool

/-- Lines of bytes, each with its newline. -/
def byteLines : Bytes → List Bytes
  | [] => []
  | b :: bs =>
    if b = 10 then [b] :: byteLines bs
    else match byteLines bs with
      | [] => [[b]]
      | line :: lines => if bs.isEmpty then [[b]] else (b :: line) :: lines

/-- What `head` or `tail` keeps of a content, as its options say. -/
def cut (front : Bool) (options : List Text) (content : Bytes) : Bytes :=
  let numbers := options.flatMap fun o => o.filter Text.isAsciiDigit
  let count := if numbers.isEmpty then 10 else Text.natOfDigits numbers
  if options.any (·.contains 'c') then
    if front then content.take count else content.drop (content.length - count)
  else
    let lines := byteLines content
    (if front then lines.take count else lines.drop (lines.length - count)).flatten

/-- Options of `head` and `tail` at the front of the arguments, each with its number if that stands
apart. -/
def countOptions : List Text → List Text × List Text
  | ['-', 'n'] :: n :: rest =>
    let (os, files) := countOptions rest
    (['-', 'n'] :: n :: os, files)
  | ['-', 'c'] :: n :: rest =>
    let (os, files) := countOptions rest
    (['-', 'c'] :: n :: os, files)
  | ('-' :: c :: cs) :: rest =>
    let (os, files) := countOptions rest
    (('-' :: c :: cs) :: os, files)
  | rest => ([], rest)

/-- A line of `wc`: the counts that the letters ask for, and the name of the file. -/
def countLine (letters : Text) (name : Text) (content : Bytes) : Text :=
  let lines := content.count 10
  let words := (Text.words (Utf8.decodeLenient content)).length
  let counts := (if letters.contains 'l' then [lines] else []) ++
    (if letters.contains 'w' then [words] else []) ++
    (if letters.contains 'c' then [content.length] else []) ++
    (if letters.contains 'm' then [(Utf8.decodeLenient content).length] else [])
  let width := if counts.length = 1 then 1 else (Text.ofNat content.length).length
  Text.join [' '] (counts.map fun n => pad false false width (Text.ofNat n)) ++
    (if name.isEmpty then [] else ' ' :: name) ++ "\n"

/-- The characters that a set of `tr` lists. -/
def charList : Nat → Text → Text
  | 0, _ => []
  | bound + 1, s =>
    match s with
    | a :: '-' :: b :: rest =>
      if a.toNat ≤ b.toNat then
        (List.range (b.toNat - a.toNat + 1)).map (fun i => Char.ofNat (a.toNat + i)) ++
          charList bound rest
      else charList bound rest
    | '\\' :: c :: rest =>
      (match escapeByte? c with
        | some b => Char.ofNat b.toNat
        | none => c) :: charList bound rest
    | c :: rest => c :: charList bound rest
    | [] => []

/-- What `tr` makes of a text. -/
def exchanged (arguments : List Text) (s : Text) : Text :=
  match arguments with
  | [['-', 'd'], set] =>
    let dropped := charList (set.length + 1) set
    s.filter (!dropped.contains ·)
  | [source, target] =>
    let source := charList (source.length + 1) source
    let target := charList (target.length + 1) target
    s.map fun c =>
      match source.idxOf? c, target.getLast? with
      | some i, some last => target.getD i last
      | _, _ => c
  | _ => s

/-- An expression of the old kind in the new one: of parentheses, braces, plus signs, question marks and bars
those with a backslash are special, not those without. -/
def modernize : Text → Text
  | [] => []
  | '\\' :: c :: s => if "()\x7b\x7d+?|".toList.contains c then c :: modernize s else '\\' :: c :: modernize s
  | c :: s => if "()\x7b\x7d+?|".toList.contains c then '\\' :: c :: modernize s else c :: modernize s

/-- The pattern that an expression of `sed` or `grep` stands for. -/
def expression? (modern : Bool) (s : Text) : Option Regex :=
  match Regex.read (if modern then s else modernize s) with
  | .ok r => some r
  | .error _ => none

/-- The replacement of `sed` as a template. -/
def template : Text → Text
  | [] => []
  | '\\' :: 'n' :: s => '\n' :: template s
  | '\\' :: c :: s =>
    if Text.isAsciiDigit c then ['$', '\x7b', c, '\x7d'] ++ template s else c :: template s
  | c :: s =>
    if c = '&' then ['$', '\x7b', '0', '\x7d'] ++ template s
    else if c = '$' then ['$', '$'] ++ template s
    else c :: template s

/-- The text up to a separator that no backslash precedes, and the text after it. -/
def upToSeparator (separator : Char) : Text → Option (Text × Text)
  | [] => none
  | '\\' :: c :: s =>
    (upToSeparator separator s).map fun (part, after) =>
      (if c = separator then c :: part else '\\' :: c :: part, after)
  | c :: s =>
    if c = separator then some ([], s)
    else (upToSeparator separator s).map fun (part, after) => (c :: part, after)

/-- The substitution that a script of `sed` is: a function on a line. -/
def substitution? (modern : Bool) (script : Text) : Option (Text → Text) :=
  match script with
  | 's' :: separator :: s => do
    let (part, s) ← upToSeparator separator s
    let (by_, flags) ← upToSeparator separator s
    let r ← expression? modern part
    let by_ := template by_
    return fun line =>
      let matches_ := r.allMatches line
      let used := if flags.contains 'g' then matches_ else matches_.take 1
      Match.exchange 0 line (used.map fun m => (m, Template.expand r m by_))
  | _ => none

/-- A function on each line of a text. -/
def onLines (f : Text → Text) (s : Text) : Text :=
  let ended := s.getLast? = some '\n'
  let lines := Text.splitLines (if ended then s.dropLast else s)
  if s.isEmpty then [] else Text.joinLines (lines.map f) ++ (if ended then ['\n'] else [])

/-- Run `sed`. -/
def edit (l : Launch) (arguments : List Text) : Outcome :=
  let (os, others) := options arguments
  let modern := (letters os).any fun c => c == 'E' || c == 'r'
  match others with
  | [] => done l 1 [] (Utf8.encode "sed: no script specified\n")
  | script :: files =>
    match substitution? modern script with
    | none => done l 1 [] (Utf8.encode "sed: -e expression #1, char 1: unknown command\n")
    | some f =>
      let (found, complaints) := contents l "sed" files
      let content := found.flatMap (·.2)
      done l (if complaints.isEmpty then 0 else 2)
        (Utf8.encode (onLines f (Utf8.decodeLenient content))) complaints

/-- Run `grep`. -/
def select (l : Launch) (arguments : List Text) : Outcome :=
  let (os, others) := options arguments
  let has (c : Char) : Bool := (letters os).contains c
  match others with
  | [] => done l 2 [] (Utf8.encode "Usage: grep [OPTION]... PATTERNS [FILE]...\n")
  | written :: files =>
    let written := if has 'F' then Pattern.escape written else written
    let written := if has 'i' then "(?i)" ++ written else written
    match expression? (has 'E' || has 'F' || has 'i') written with
    | none => done l 2 [] (Utf8.encode "grep: Invalid regular expression\n")
    | some r =>
      let (found, complaints) := contents l "grep" files
      let chosen := found.map fun (name, content) =>
        (name, (Text.lines (Utf8.decodeLenient content)).filter fun line =>
          (r.allMatches line).isEmpty = has 'v')
      let label (name : Text) : Text := if files.length < 2 then [] else name ++ ":"
      let printed := chosen.flatMap fun (name, lines) =>
        if has 'q' then []
        else if has 'c' then label name ++ Text.ofNat lines.length ++ "\n"
        else if has 'l' then (if lines.isEmpty then [] else name ++ "\n")
        else lines.flatMap fun line => label name ++ line ++ "\n"
      let status := if !complaints.isEmpty then 2 else if chosen.all (·.2.isEmpty) then 1 else 0
      done l status (Utf8.encode printed) complaints

/-- Run `tee`. -/
def copyOut (l : Launch) (arguments : List Text) : Outcome :=
  let (os, files) := options arguments
  let append := (letters os).contains 'a'
  let (disk, complaints) := files.foldl (fun (d, complaints) file =>
    let old := match d.read l.here file with
      | .ok content => if append then content else []
      | .error _ => []
    match d.write l.here file (old ++ l.input) with
    | .ok d => (d, complaints)
    | .error fault => (d, complaints ++ complaint "tee" file fault)) (l.disk, [])
  ⟨.exited (if complaints.isEmpty then 0 else 1), l.input, complaints, disk⟩

end Crosscheck.Tool
