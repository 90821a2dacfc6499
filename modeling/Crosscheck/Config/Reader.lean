import Crosscheck.Config.Basic
import Crosscheck.Json.Reader
/-!
# Reading a configuration

A configuration is a JSON object, or an array that gives the values in the order of the keys. Keys left
out keep their defaults, unknown keys are passed over whatever their value, and a known key may be given
once. The sentinel must not be blank, as every line would then end a snippet.
-/

namespace Crosscheck.Config

open Json (Form)

/-- The values of the known keys, in their order: those of an object by key, those of an array by
position. None if a known key is repeated or the array is too long. -/
def record? (known : List Text) : Form → Option (List (Option Form))
  | .object fields =>
    if fields.any (·.1.isNone) then none
    else if known.all fun k => (fields.filter (·.1 = some k)).length ≤ 1 then
      some (known.map fun k => fields.lookup (some k))
    else none
  | .array items =>
    if items.length ≤ known.length then
      some (items.map some ++ List.replicate (known.length - items.length) none)
    else none
  | _ => none

/-- A value for a key, or the default if the key is left out. -/
def orDefault {α : Type} (read : Form → Option α) (default : α) : Option Form → Option α
  | some form => read form
  | none => some default

def text? : Form → Option Text
  | .string content => content
  | _ => none

def bool? : Form → Option Bool
  | .bool b => some b
  | _ => none

def list? {α : Type} (read : Form → Option α) : Form → Option (List α)
  | .array items => items.mapM read
  | _ => none

/-- A tag is an object with one key that says its kind. -/
def tag? : Form → Option Tag
  | .object [(some kind, value)] =>
    if kind = "literal".toList then (text? value).map .literal
    else if kind = "pattern".toList then (text? value).map .pattern
    else none
  | _ => none

def branchNamed? (name : Text) : Option Branch :=
  if name = "primary".toList then some .primary
  else if name = "alternate".toList then some .alternate
  else none

/-- A branch is named by a string, or by the only key of an object whose value is null. -/
def branch? : Form → Option Branch
  | .string (some name) => branchNamed? name
  | .object [(some name, .null)] => branchNamed? name
  | _ => none

/-- A patch mode lists groups with whether they are active. -/
def patchMode? (form : Form) : Option PatchMode := do
  let given ← record? (RuleGroup.all.map RuleGroup.key) form
  match given with
  | [a, b, c, d, e] => do
    let a ← orDefault bool? (PatchMode.default.enables .qualifiedNames) a
    let b ← orDefault bool? (PatchMode.default.enables .stringCoercions) b
    let c ← orDefault bool? (PatchMode.default.enables .visibility) c
    let d ← orDefault bool? (PatchMode.default.enables .conformance) d
    let e ← orDefault bool? (PatchMode.default.enables .dataClasses) e
    return ⟨a, b, c, d, e⟩
  | _ => none

/-- An import guard needs both its parts. -/
def importGuard? (form : Form) : Option ImportGuard := do
  match ← record? ["from", "to"] form with
  | [some source, some target] => return ⟨← text? source, ← text? target⟩
  | _ => none

/-- The keys of a configuration in their order. -/
def keys : List Text := ["sentinel", "prelude", "tags", "branch", "patch", "self_import_guard"]

/-- The settings that a JSON form describes. -/
def ofForm? (form : Form) : Option Config := do
  match ← record? keys form with
  | [sentinel, prelude, tags, branch, patch, guard] => do
    let sentinel ← orDefault text? default.sentinel sentinel
    let prelude ← orDefault (list? text?) default.prelude prelude
    let tags ← orDefault (list? tag?) default.tags tags
    let branch ← orDefault branch? default.branch branch
    let patch ← orDefault patchMode? default.patch patch
    let guard ← orDefault importGuard? default.importGuard guard
    return ⟨sentinel, prelude, tags, branch, patch, guard⟩
  | _ => none

/-- What a malformed configuration is reported with. -/
def malformed : Text := "Failed to parse JSON: not a configuration"

/-- What a blank sentinel is reported with. -/
def blankSentinel : Text := "sentinel cannot be empty"

/-- The configuration that a text spells. -/
def read (s : Text) : Except Failure Config :=
  match (Form.read? s).bind ofForm? with
  | none => .error (.config malformed)
  | some config =>
    if Text.isBlankText config.sentinel then .error (.config blankSentinel) else .ok config

/-- The configuration that the file at `path` spells, given its text; failures name the file. -/
def readNamed (path s : Text) : Except Failure Config :=
  match read s with
  | .error (.config text) => .error (.config ("Invalid config '" ++ path ++ "': " ++ text))
  | r => r

end Crosscheck.Config
