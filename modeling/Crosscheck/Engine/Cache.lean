import Crosscheck.Engine.Basic
import Crosscheck.World
/-!
# The shared engine

An engine is expensive to build, so it is built when it is first needed and then shared. There is one
attempt: if it fails, the failure is what everybody gets from then on.
-/

namespace Crosscheck

/-- How an engine is built; building may change the state `σ`, and fail. -/
abbrev EngineFactory (σ : Type) := StateM σ (Except Text (Engine σ))

/-- An engine that is built at most once. -/
structure EngineCache (σ : Type) where
  factory : EngineFactory σ
  /-- The engine, or the failure to build it, once that has been tried. -/
  outcome : Option (Except Failure (Engine σ))
  /-- How often it has been tried. -/
  attempts : Nat

namespace EngineCache

variable {σ : Type}

/-- A cache whose engine is still to be built. -/
def ofFactory (factory : EngineFactory σ) : EngineCache σ := ⟨factory, none, 0⟩

/-- A cache around an engine that is there already. -/
def ofEngine (e : Engine σ) : EngineCache σ := ofFactory fun s => (.ok e, s)

/-- A cache whose engine answers by a rehearsal. -/
def rehearsed (r : Engine.Rehearsal) : EngineCache σ := ofEngine (Engine.rehearsed r)

/-- A cache whose engine cannot be built. -/
def failing (text : Text) : EngineCache σ := ofFactory fun s => (.error text, s)

/-- The shared engine. -/
def get : Attempt (EngineCache σ × σ) (Engine σ) := fun (cache, s) =>
  match cache.outcome with
  | some outcome => (outcome, cache, s)
  | none =>
    let (built, s) := cache.factory s
    let outcome := built.mapError Failure.engineUnavailable
    (outcome, { cache with outcome := some outcome, attempts := cache.attempts + 1 }, s)

/-- The value of an artifact on the shared engine. -/
def evaluate (artifact : Text) : Attempt (EngineCache σ × σ) Value := do
  let engine ← get
  let (answer, s) := engine.eval artifact (← MonadState.get).2
  modify fun state => (state.1, s)
  match answer with
  | .ok v => return Value.ofJson v
  | .error text => throw (.eval text artifact)

/-- What can be seen of a cache. -/
def debug (cache : EngineCache σ) : Text :=
  let state : Text := match cache.outcome with
    | none => "uninitialized"
    | some (.ok _) => "ready"
    | some (.error _) => "failed"
  Text.withParts "EngineCache" [("state", Text.quoted state),
    ("attempts", Text.ofNat cache.attempts)]

end EngineCache

end Crosscheck
