import Crosscheck.Conditional.Block
import Crosscheck.Text.Edit
import Crosscheck.Text.Replace
/-!
# Resolving conditional blocks

A resolver replaces every block that it recognizes by the body of one branch. One pass takes all blocks
that match at present; passes go on until none is left, so blocks around others get their turn. A block
whose branch is empty or missing goes together with the line break before it.
-/

namespace Crosscheck

/-- Keeps one branch of the blocks that it recognizes. -/
structure Resolver where
  block : Regex
  branch : Branch

namespace Resolver

/-- The resolver for a tag set. -/
def ofTags (tags : TagSet) (branch : Branch) : Except Failure Resolver :=
  match Block.ofTags tags with
  | .ok block => .ok ⟨block, branch⟩
  | .error defect => .error (.invalidPattern defect.message)

/-- The text of a named group that took part. -/
def named? (r : Resolver) (m : Match) (name : Text) : Option Text :=
  (r.block.groupNamed? name).bind m.group?

/-- What takes the place of a block. -/
def replacement (r : Resolver) (m : Match) : Text :=
  let body := match r.branch with
    | .primary => r.named? m "primary"
    | .alternate => r.named? m "alternate"
  match body with
  | some body => (r.named? m "lead").getD [] ++ body
  | none => []

/-- The edits of one pass. -/
def edits (r : Resolver) (s : Text) : List Edit :=
  (r.block.allMatches s).map fun m => ⟨m.start, m.stop, r.replacement m⟩

/-- One pass over the text; none if no block matches. -/
def pass? (r : Resolver) (s : Text) : Option Text :=
  match r.edits s with
  | [] => none
  | e :: es => some (Edit.applyAll (e :: es) s)

/-- Passes until no block matches, `bound` of them at most. -/
def settle (r : Resolver) : Nat → Text → Text
  | 0, s => s
  | bound + 1, s =>
    match r.pass? s with
    | some t => settle r bound t
    | none => s

/-- Resolve every recognized block. As long as each pass that finds a block shortens the text, the length
bounds the number of passes. -/
def resolve (r : Resolver) (s : Text) : Text := r.settle (s.length + 1) s

end Resolver

/-- The condition under which a source imports its own library, and what the translator knows in its
place. -/
structure ImportGuard where
  source : Text
  target : Text
deriving DecidableEq

namespace ImportGuard

/-- The guard unless another one is configured. -/
def default : ImportGuard := ⟨"#if canImport(Skiff)", "#if GRYPHON"⟩

/-- Exchange every occurrence of the source's condition. -/
def apply (g : ImportGuard) (s : Text) : Text := Text.replaceAll g.source g.target s

end ImportGuard

end Crosscheck
