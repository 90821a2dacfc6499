import Crosscheck.Text.Basic
/-!
# Arguments

What stands on a command line, level by level. A level has flags, options with a value and a fixed number of
operands, in any order, and may end at the name of a command, which opens the next level. A flag or option
has a long name after two hyphens and may have a short one after a single hyphen; short names can be
strung together. The value of an option is attached or comes next, and none is given twice. After two hyphens
alone everything is an operand.
-/

namespace Crosscheck.CommandLine

/-- The names of a flag or an option. -/
structure Names where
  long : Text
  short : Option Char
deriving DecidableEq

/-- What may stand on a level. -/
structure Level where
  flags : List Names
  options : List Names
  /-- Whether a text can be the operand at each position. -/
  operands : List (Text → Bool)
  /-- The commands that open the next level. -/
  commands : List Text
  /-- Whether the version can be asked for. -/
  versioned : Bool

/-- Why the arguments are not gone through to the end. -/
inductive Stop
  /-- They cannot be understood. -/
  | misuse
  /-- Help is asked for. -/
  | help
  /-- The version is asked for. -/
  | version
deriving DecidableEq

/-- What was found on a level. -/
structure Given where
  flags : List Text
  options : List (Text × Text)
  operands : List Text
deriving DecidableEq

namespace Given

/-- Nothing was found. -/
def none : Given := ⟨[], [], []⟩

/-- Whether a flag was given. -/
def flag (g : Given) (name : Text) : Bool := g.flags.contains name

/-- The value of an option. -/
def option? (g : Given) (name : Text) : Option Text := g.options.lookup name

/-- Set a flag that is not set yet. -/
def setFlag (g : Given) (name : Text) : Except Stop Given :=
  if g.flag name then .error .misuse else .ok { g with flags := name :: g.flags }

/-- Give a value to an option that has none yet. -/
def setOption (g : Given) (name value : Text) : Except Stop Given :=
  if (g.option? name).isSome then .error .misuse
  else .ok { g with options := (name, value) :: g.options }

end Given

/-- How far a level has been read. -/
structure Progress where
  given : Given
  /-- The option whose value comes next. -/
  awaited : Option Text
  /-- Whether only operands follow. -/
  operandsOnly : Bool

namespace Level

/-- The flag or option with a short name. -/
def ofShort? (names : List Names) (c : Char) : Option Text :=
  (names.find? (·.short = some c)).map (·.long)

/-- Whether there is a flag or option of this name. -/
def has (names : List Names) (name : Text) : Bool := names.any (·.long = name)

/-- An argument that starts with a hyphen and is more than that. -/
def isHyphened (a : Text) : Bool := a.head? = some '-' && a ≠ ['-']

/-- Read what follows a single hyphen. -/
def readShort (l : Level) (p : Progress) : Text → Except Stop Progress
  | [] => .ok p
  | c :: rest =>
    match ofShort? l.flags c, ofShort? l.options c with
    | some name, _ => do
      let given ← p.given.setFlag name
      l.readShort { p with given := given } rest
    | none, some name =>
      match rest with
      | [] => .ok { p with awaited := some name }
      | '=' :: value => do return { p with given := ← p.given.setOption name value }
      | value => do return { p with given := ← p.given.setOption name value }
    | none, none =>
      if c = 'h' then .error .help
      else if c = 'V' && l.versioned then .error .version
      else .error .misuse

/-- Read a long name, with the value attached to it if there is one. -/
def readLong (l : Level) (p : Progress) (name : Text) (value : Option Text) : Except Stop Progress :=
  if has l.options name then
    match value with
    | some value => do return { p with given := ← p.given.setOption name value }
    | none => .ok { p with awaited := some name }
  else if value.isSome then .error .misuse
  else if has l.flags name then do return { p with given := ← p.given.setFlag name }
  else if name = "help".toList then .error .help
  else if name = "version".toList && l.versioned then .error .version
  else .error .misuse

/-- Read an operand. -/
def readOperand (l : Level) (p : Progress) (a : Text) : Except Stop Progress :=
  match l.operands[p.given.operands.length]? with
  | some suits =>
    if suits a then .ok { p with given := { p.given with operands := p.given.operands ++ [a] } }
    else .error .misuse
  | none => .error .misuse

/-- Read one argument. -/
def readOne (l : Level) (p : Progress) (a : Text) : Except Stop Progress :=
  match p.awaited with
  | some name =>
    if isHyphened a then .error .misuse
    else do return { p with given := ← p.given.setOption name a, awaited := none }
  | none =>
    if p.operandsOnly || !isHyphened a then l.readOperand p a
    else match a with
      | ['-', '-'] => .ok { p with operandsOnly := true }
      | '-' :: '-' :: long =>
        match Text.cutAt? ['='] long with
        | some (name, value) => l.readLong p name (some value)
        | none => l.readLong p long none
      | _ => l.readShort p (a.drop 1)

/-- Read arguments up to the end or to a command; what was found, and the command with what follows. -/
def readFrom (l : Level) (p : Progress) : List Text → Except Stop (Given × List Text)
  | [] =>
    if p.awaited.isSome || p.given.operands.length < l.operands.length then .error .misuse
    else .ok (p.given, [])
  | a :: rest =>
    if p.awaited.isNone && !p.operandsOnly && l.commands.contains a then .ok (p.given, a :: rest)
    else do l.readFrom (← l.readOne p a) rest

/-- Read a level from its start. -/
def read (l : Level) (arguments : List Text) : Except Stop (Given × List Text) :=
  l.readFrom ⟨.none, none, false⟩ arguments

end Level

end Crosscheck.CommandLine
