import Crosscheck.Patch.Rule
/-!
# Patching

A patcher applies the active rules in order, and again from the first as long as any of them changes the
text, because removing one occurrence can bring another one about. Rules that never settle stop after a
fixed number of passes.
-/

namespace Crosscheck

/-- Rules in order, and the mode in which they run. -/
structure Patcher where
  rules : List PatchRule
  mode : PatchMode

namespace Patcher

/-- How many passes are made at most. -/
def maxPasses : Nat := 64

/-- The rules whose group is active in `mode`. -/
def rulesIn (p : Patcher) (mode : PatchMode) : List PatchRule :=
  p.rules.filter fun r => mode.enables r.group

/-- The rules that run in the patcher's own mode. -/
def activeRules (p : Patcher) : List PatchRule := p.rulesIn p.mode

/-- Apply each rule once, in order. -/
def sweep (rules : List PatchRule) (s : Text) : Text := rules.foldl (fun s r => r.apply s) s

/-- Whether a rule changes the text when the rules are applied in order. -/
def changes : List PatchRule → Text → Bool
  | [], _ => false
  | r :: rest, s => r.apply s != s || changes rest (r.apply s)

/-- Sweep until no rule changes the text, `bound` times at most. -/
def settle (rules : List PatchRule) : Nat → Text → Text
  | 0, s => s
  | bound + 1, s =>
    if changes rules s then settle rules bound (sweep rules s) else s

/-- Patch in another mode than the patcher's own. -/
def patchWith (p : Patcher) (mode : PatchMode) (s : Text) : Text :=
  settle (p.rulesIn mode) maxPasses s

/-- Patch in the patcher's own mode. -/
def patch (p : Patcher) (s : Text) : Text := p.patchWith p.mode s

/-- The patcher with the built-in rules. -/
def builtIn (mode : PatchMode) : Patcher := ⟨PatchRule.builtIn, mode⟩

end Patcher

end Crosscheck
