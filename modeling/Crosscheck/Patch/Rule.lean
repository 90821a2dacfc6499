import Crosscheck.Pattern.Reader
import Crosscheck.Pattern.Template
import Crosscheck.Text.Replace
/-!
# Patch rules

A rule is a named substitution that mends one habit of the translator. Rules belong to groups, and a
mode says which groups are active.
-/

namespace Crosscheck

/-- The groups that rules belong to. -/
inductive RuleGroup
  /-- Namespaces joined with dollar signs, and needless string constructors. -/
  | qualifiedNames
  /-- String coercions on optional results. -/
  | stringCoercions
  /-- `internal` on functions. -/
  | visibility
  /-- Supertypes without a counterpart. -/
  | conformance
  /-- Value classes declared over two lines. -/
  | dataClasses
deriving DecidableEq

namespace RuleGroup

/-- The name of a group in a configuration. -/
def key : RuleGroup → Text
  | .qualifiedNames => "qualified_name_repair"
  | .stringCoercions => "string_coercion_removal"
  | .visibility => "visibility_modifier_fix"
  | .conformance => "conformance_cleanup"
  | .dataClasses => "data_class_annotation_fix"

/-- The groups in the order in which a configuration lists them. -/
def all : List RuleGroup :=
  [.qualifiedNames, .stringCoercions, .visibility, .conformance, .dataClasses]

end RuleGroup

/-- Which groups are active. -/
structure PatchMode where
  qualifiedNames : Bool
  stringCoercions : Bool
  visibility : Bool
  conformance : Bool
  dataClasses : Bool
deriving DecidableEq

namespace PatchMode

/-- What every translated text needs. -/
def default : PatchMode := ⟨false, false, true, true, true⟩

/-- Everything, for code that calls on the Java standard library. -/
def full : PatchMode := ⟨true, true, true, true, true⟩

/-- Nothing. -/
def none : PatchMode := ⟨false, false, false, false, false⟩

/-- Whether a group is active. -/
def enables (m : PatchMode) : RuleGroup → Bool
  | .qualifiedNames => m.qualifiedNames
  | .stringCoercions => m.stringCoercions
  | .visibility => m.visibility
  | .conformance => m.conformance
  | .dataClasses => m.dataClasses

/-- The mode that the answers for each group describe. -/
def ofGroups (active : RuleGroup → Bool) : PatchMode where
  qualifiedNames := active .qualifiedNames
  stringCoercions := active .stringCoercions
  visibility := active .visibility
  conformance := active .conformance
  dataClasses := active .dataClasses

end PatchMode

/-- What a rule does. -/
inductive Substitution
  /-- Replace every occurrence of a text. -/
  | literal (part by_ : Text)
  /-- Replace every match of a pattern by what the template stands for. -/
  | pattern (regex : Regex) (template : Text)

/-- Carry out a substitution once. -/
def Substitution.apply : Substitution → Text → Text
  | .literal part by_, s => Text.replaceAll part by_ s
  | .pattern regex template, s => regex.replaceAll template s

/-- A named substitution. -/
structure PatchRule where
  name : Text
  group : RuleGroup
  action : Substitution

namespace PatchRule

/-- The rule that replaces every occurrence of `part`. -/
def literal (name : Text) (group : RuleGroup) (part by_ : Text) : PatchRule :=
  ⟨name, group, .literal part by_⟩

/-- The rule that replaces every match of a written pattern. -/
def pattern (name : Text) (group : RuleGroup) (written template : Text) :
    Except Pattern.Defect PatchRule := do
  return ⟨name, group, .pattern (← Regex.read written) template⟩

/-- Apply the rule once. -/
def apply (r : PatchRule) (s : Text) : Text := r.action.apply s

/-- `internal`, as often as it is repeated, before `fun` and a space. -/
def internalFunction : Regex where
  pattern := .seq
    (Pattern.plus (Pattern.chain [Pattern.wordEdge, Pattern.literal "internal",
      Pattern.plus Pattern.spaceOrTab]))
    (Pattern.literal "fun ")
  names := []

/-- The rules in the order in which they must run. The modifier is taken off top-level functions too,
because it cannot be told which functions are local; without it they are public, which does no harm. -/
def builtIn : List PatchRule := [
  ⟨"internal-function-modifier", .visibility, .pattern internalFunction "fun "⟩,
  literal "raw-representable-supertype" .conformance ": RawRepresentable()" [],
  literal "jvm-inline-value-class" .dataClasses "@JvmInline\n\ndata class" "@JvmInline value class",
  literal "java-string-constructor" .qualifiedNames "java$lang$String(" "(",
  literal "java-lang-namespace" .qualifiedNames "java$lang$" "java.lang.",
  literal "java-io-namespace" .qualifiedNames "java$io$" "java.io.",
  literal "java-util-namespace" .qualifiedNames "java$util$" "java.util.",
  literal "swift-string-coercion" .stringCoercions "?.toSwiftString()" []]

end PatchRule

end Crosscheck
