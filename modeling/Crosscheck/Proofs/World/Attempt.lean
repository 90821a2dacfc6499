import Crosscheck.World
/-!
# Attempts and their failures

An attempt goes on only after a result, and a failure takes the state that it left with it. The stages
noted on a failure and its root determine the failure.
-/

namespace Crosscheck

namespace Failure

/-- The stages noted on a failure, the outermost first. -/
def stages : Failure → List Stage
  | .inStage stage f => stage :: f.stages
  | _ => []

variable {f g : Failure} {stage : Stage}

end Failure

namespace Attempt

variable {σ α β : Type} {x : Attempt σ α} {f : α → Attempt σ β} {s s' : σ}

theorem bind_ok {a : α} (h : x s = (.ok a, s')) : (x >>= f) s = f a s' := by
  change (match x s with | (r, s') => ExceptT.bindCont f r s') = _
  rw [h]
  rfl

theorem bind_error {e : Failure} (h : x s = (.error e, s')) : (x >>= f) s = (.error e, s') := by
  change (match x s with | (r, s') => ExceptT.bindCont f r s') = _
  rw [h]
  rfl

/-- What gives a result in two steps gives one in each. -/
theorem exists_of_bind_ok {b : β} (h : (x >>= f) s = (.ok b, s')) :
    ∃ a t, x s = (.ok a, t) ∧ f a t = (.ok b, s') := by
  rcases hx : x s with ⟨e | a, t⟩
  · rw [bind_error hx] at h
    cases h
  · exact ⟨a, t, rfl, (bind_ok hx).symm.trans h⟩

end Attempt

namespace World

variable {σ α : Type} {step : Attempt σ α} {s s' : σ} {stage : Stage}

theorem during_ok {a : α} (h : step s = (.ok a, s')) : during stage step s = (.ok a, s') := by
  rw [during, h]

theorem during_error {f : Failure} (h : step s = (.error f, s')) :
    during stage step s = (.error (f.during stage), s') := by
  rw [during, h]

theorem eq_ok_of_during {a : α} (h : during stage step s = (.ok a, s')) : step s = (.ok a, s') := by
  rcases hstep : step s with ⟨f | a, t⟩
  · rw [during_error hstep] at h
    cases h
  · rwa [during_ok hstep] at h

end World

end Crosscheck
