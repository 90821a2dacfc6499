import Crosscheck.Engine.Cache
/-!
# Sessions

A session is a world together with the script engine that all evaluations in it share, if one is
configured.
-/

namespace Crosscheck

/-- The outside of a run and the engine shared by its evaluations. -/
structure Session where
  world : World
  engine : Option (EngineCache World)

namespace Session

/-- What an evaluation without an engine is reported with. -/
def noEngine : Text := "no script engine configured"

/-- Carry out a step that concerns the world alone. -/
def inWorld {α : Type} (step : Attempt World α) : Attempt Session α := fun s =>
  match step s.world with
  | (r, world) => (r, { s with world := world })

/-- Carry out a step of the shared engine. -/
def inEngine {α : Type} (step : Attempt (EngineCache World × World) α) : Attempt Session α := fun s =>
  match s.engine with
  | none => (.error (.engineUnavailable noEngine), s)
  | some cache =>
    match step (cache, s.world) with
    | (r, cache, world) => (r, ⟨world, some cache⟩)

/-- The value of an artifact. -/
def evaluate (artifact : Text) : Attempt Session Value := inEngine (EngineCache.evaluate artifact)

end Session

end Crosscheck
