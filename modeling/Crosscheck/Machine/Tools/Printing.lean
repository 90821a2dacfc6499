import Crosscheck.Machine.Tools.Basic
/-!
# Printing tools

What `echo` and `printf` print.
-/

namespace Crosscheck.Tool

/-- An octal number of up to `width` digits and the text after it. -/
def octal (width : Nat) (s : Text) : Option (Nat × Text) :=
  let digits := (s.take width).takeWhile fun c => '0' ≤ c && c ≤ '7'
  if digits.isEmpty then none
  else some (digits.foldl (fun n d => 8 * n + (d.toNat - 48)) 0, s.drop digits.length)

/-- The byte that a letter after a backslash stands for. -/
def escapeByte? (c : Char) : Option UInt8 :=
  if c = 'a' then some 7
  else if c = 'b' then some 8
  else if c = 'f' then some 12
  else if c = 'n' then some 10
  else if c = 'r' then some 13
  else if c = 't' then some 9
  else if c = 'v' then some 11
  else if c = '\\' then some 92
  else none

/-- A text with its escapes worked out, and whether it asked to stop. Octal numbers have three digits,
after a leading zero if `zeroFirst`. -/
def unescape (zeroFirst : Bool) : Nat → Text → Bytes × Bool
  | 0, _ => ([], false)
  | bound + 1, s =>
    match s with
    | [] => ([], false)
    | '\\' :: c :: rest =>
      if c = 'c' then ([], true)
      else
        let (bytes, rest) : Bytes × Text := match escapeByte? c with
          | some b => ([b], rest)
          | none =>
            let number := if zeroFirst then (if c = '0' then some ((octal 3 rest).getD (0, rest)) else none)
              else octal 3 (c :: rest)
            match number with
            | some (n, rest) => ([n.toUInt8], rest)
            | none => ([92] ++ Utf8.encodeChar c, rest)
        let (more, stop) := unescape zeroFirst bound rest
        (bytes ++ more, stop)
    | c :: rest =>
      let (more, stop) := unescape zeroFirst bound rest
      (Utf8.encodeChar c ++ more, stop)

/-- What `echo` prints; escapes are worked out if `escapes`. -/
def echoed (escapes : Bool) (arguments : List Text) : Bytes :=
  let (newline, arguments) := match arguments with
    | ['-', 'n'] :: rest => (false, rest)
    | _ => (true, arguments)
  let line := Text.join [' '] arguments
  let (bytes, stop) := if escapes then unescape true (line.length + 1) line
    else (Utf8.encode line, false)
  if newline && !stop then bytes ++ [10] else bytes

/-- Fill up to a width on the left, or on the right if `left`. -/
def pad (left : Bool) (zero : Bool) (width : Nat) (s : Text) : Text :=
  let filler := List.replicate (width - s.length) (if zero && !left then '0' else ' ')
  if left then s ++ filler else filler ++ s

/-- Format a list of arguments once: the bytes, the arguments left and whether the output stops. -/
def formatOnce : Nat → Text → List Text → Bytes × List Text × Bool
  | 0, _, arguments => ([], arguments, false)
  | bound + 1, format, arguments =>
    match format with
    | [] => ([], arguments, false)
    | '%' :: '%' :: rest =>
      let (bytes, arguments, stop) := formatOnce bound rest arguments
      (37 :: bytes, arguments, stop)
    | '%' :: rest =>
      let flags := rest.takeWhile fun c => c == '-' || c == '0' || c == '+' || c == ' ' || c == '#'
      let rest := rest.drop flags.length
      let width := rest.takeWhile Text.isAsciiDigit
      let rest := rest.drop width.length
      let (precision, rest) := match rest with
        | '.' :: after =>
          let ds := after.takeWhile Text.isAsciiDigit
          (some (Text.natOfDigits ds), after.drop ds.length)
        | _ => (none, rest)
      match rest with
      | [] => (Utf8.encode format, arguments, true)
      | conversion :: rest =>
        let argument := arguments.headD []
        let arguments := arguments.drop 1
        let number := (int? argument).getD 0
        let fill := pad (flags.contains '-') (flags.contains '0') (Text.natOfDigits width)
        let (bytes, halt) : Bytes × Bool :=
          if conversion = 's' then
            (Utf8.encode (fill (match precision with
              | some n => argument.take n
              | none => argument)), false)
          else if conversion = 'b' then unescape true (argument.length + 1) argument
          else if conversion = 'c' then (Utf8.encode (fill (argument.take 1)), false)
          else if conversion = 'd' || conversion = 'i' then
            (Utf8.encode (fill (Text.ofInt number)), false)
          else if conversion = 'u' then (Utf8.encode (fill (Text.ofNat number.toNat)), false)
          else if conversion = 'x' then (Utf8.encode (fill (Text.hex number.toNat)), false)
          else if conversion = 'X' then
            (Utf8.encode (fill ((Text.hex number.toNat).map Char.toUpper)), false)
          else if conversion = 'o' then
            (Utf8.encode (fill (Nat.toDigits 8 number.toNat)), false)
          else (Utf8.encode ['%', conversion], false)
        if halt then (bytes, arguments, true)
        else
          let (more, arguments, stop) := formatOnce bound rest arguments
          (bytes ++ more, arguments, stop)
    | '\\' :: c :: rest =>
      if c = 'c' then ([], arguments, true)
      else
        let (bytes, rest) : Bytes × Text := match escapeByte? c with
          | some b => ([b], rest)
          | none =>
            if c = '"' || c = '\'' then (Utf8.encodeChar c, rest)
            else match octal 3 (c :: rest) with
              | some (n, rest) => ([n.toUInt8], rest)
              | none => ([92] ++ Utf8.encodeChar c, rest)
        let (more, arguments, stop) := formatOnce bound rest arguments
        (bytes ++ more, arguments, stop)
    | c :: rest =>
      let (bytes, arguments, stop) := formatOnce bound rest arguments
      (Utf8.encodeChar c ++ bytes, arguments, stop)

/-- What `printf` prints: the format is used again as long as it uses up arguments. -/
def formatted : Nat → Text → List Text → Bytes
  | 0, _, _ => []
  | bound + 1, template, arguments =>
    let (bytes, left, stop) := formatOnce (template.length + 1) template arguments
    if stop || left.isEmpty || left.length = arguments.length then bytes
    else bytes ++ formatted bound template left

end Crosscheck.Tool
