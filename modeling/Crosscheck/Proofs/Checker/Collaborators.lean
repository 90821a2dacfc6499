import Crosscheck.Checker.Session
import Crosscheck.Proofs.World.Attempt
import Crosscheck.Translator.Invoker
import Mathlib.Data.List.Basic
/-!
# The collaborators of a checker

What invoking the translator and evaluating on the shared engine come to, which of their failures bear a
stage, and how often they are called, as far as the calls can be told from the world.
-/

namespace Crosscheck

/-! ## The shared engine -/

namespace EngineCache

variable {σ : Type} {cache cache' : EngineCache σ} {e : Engine σ} {s s' s'' : σ} {artifact : Text}

theorem get_of_some {outcome : Except Failure (Engine σ)} (h : cache.outcome = some outcome) :
    get (cache, s) = (outcome, cache, s) := by
  simp only [get, h]

theorem get_of_none {built : Except Text (Engine σ)} (h : cache.outcome = none)
    (hbuilt : cache.factory s = (built, s')) :
    get (cache, s) = (built.mapError .engineUnavailable, { cache with
      outcome := some (built.mapError .engineUnavailable), attempts := cache.attempts + 1 }, s') := by
  simp only [get, h, hbuilt]

/-- The result of an evaluation that the engine answers. -/
def answered (artifact : Text) : Except Text Json → Except Failure Value
  | .ok v => .ok (Value.ofJson v)
  | .error text => .error (.eval text artifact)

theorem evaluate_of_get {answer : Except Text Json} (h : get (cache, s) = (.ok e, cache', s'))
    (hanswer : e.eval artifact s' = (answer, s'')) :
    evaluate artifact (cache, s) = (answered artifact answer, cache', s'') := by
  have hstate : (MonadState.get : Attempt (EngineCache σ × σ) (EngineCache σ × σ)) (cache', s') =
      (.ok (cache', s'), cache', s') := rfl
  rw [evaluate, Attempt.bind_ok h, Attempt.bind_ok hstate]
  simp only [hanswer]
  cases answer with
  | ok v => rfl
  | error text => rfl

theorem evaluate_of_get_error {f : Failure} (h : get (cache, s) = (.error f, cache', s')) :
    evaluate artifact (cache, s) = (.error f, cache', s') :=
  Attempt.bind_error h

end EngineCache

namespace Session

variable {s : Session} {cache cache' : EngineCache World} {artifact : Text} {w : World}

theorem evaluate_of_none (h : s.engine = none) :
    evaluate artifact s = (.error (.engineUnavailable noEngine), s) := by
  simp only [evaluate, inEngine, h]

theorem evaluate_of_some {result : Except Failure Value} (h : s.engine = some cache)
    (he : EngineCache.evaluate artifact (cache, s.world) = (result, cache', w)) :
    evaluate artifact s = (result, ⟨w, some cache'⟩) := by
  simp only [evaluate, inEngine, h, he]

end Session

/-! ## The translator -/

namespace Invoker

/-- A source file is written, and nothing else of the world changes, or it is not. -/
theorem persist_cases (i : Invoker) (source : Text) (w : World) :
    (∃ path disk, i.persist source w = (.ok path, { w with disk := disk })) ∨
      ∃ text, i.persist source w = (.error (.io text), w) := by
  rw [persist]
  split
  · next path w' hfresh =>
    unfold World.writeFresh at hfresh
    simp only at hfresh
    split at hfresh
    · cases hfresh
    · split at hfresh
      · cases hfresh
        exact .inl ⟨_, _, rfl⟩
      · cases hfresh
      · cases hfresh
  · exact .inr ⟨_, rfl⟩

/-- The translator is called once if its source file could be written, and its answer is unwrapped. -/
theorem translate_cases (i : Invoker) (source : Text) (w : World) :
    (∃ text, i.translate source w = (.error (.io text), w)) ∨
      ∃ path disk, i.translate source w =
        match i.translator.compile (arguments path) { w with disk := disk } with
        | (.ok answer, w') => (Translator.unwrap answer, w')
        | (.error f, w') => (.error f, w') := by
  rcases i.persist_cases (i.importGuard.apply source) w with ⟨path, disk, hpersist⟩ | ⟨text, hpersist⟩
  · refine .inr ⟨path, disk, ?_⟩
    rw [translate, Attempt.bind_ok hpersist]
    cases hcompile : i.translator.compile (arguments path) { w with disk := disk } with
    | mk result w' =>
      cases result with
      | error f => exact Attempt.bind_error hcompile
      | ok answer =>
        rw [Attempt.bind_ok hcompile]
        cases hunwrap : Translator.unwrap answer with
        | ok translated =>
            simp only [hunwrap]
            rfl
        | error f =>
            simp only [hunwrap]
            rfl
  · exact .inl ⟨text, Attempt.bind_error hpersist⟩

section Answers

variable {i : Invoker} {w : World} {place : Place}
  (hplace : w.disk.locate w.here (Path.join (World.placeText w.here) i.directory) = .ok place)
  (hentry : w.disk.entry? place = some .directory)
include hplace hentry

theorem exists_persist (s : Text) : ∃ path w', i.persist s w = (.ok path, w') := by
  simp only [persist, World.writeFresh, hplace, hentry]
  exact ⟨_, _, rfl⟩

/-- A translator that always gives the same answer gives it for every text. -/
theorem translate_of_answers {answer : Option Json} {translated : Text}
    (hcompile : ∀ arguments w, (i.translator.compile arguments w).1 = .ok answer)
    (hunwrap : Translator.unwrap answer = .ok translated) (s : Text) :
    (i.translate s w).1 = .ok translated := by
  obtain ⟨path, w₁, hpersist⟩ := exists_persist hplace hentry (i.importGuard.apply s)
  rw [translate, Attempt.bind_ok hpersist, Attempt.bind_ok (Prod.ext (hcompile _ _) rfl)]
  simp only [hunwrap]
  rfl

end Answers

end Invoker

/-! ## Failures of the collaborators -/

/-- The translator notes no stage on its failures, nor does what the engine cache keeps. -/
structure Unstaged (t : Translator) (engine : Option (EngineCache World)) : Prop where
  translator : ∀ arguments w f, (t.compile arguments w).1 = .error f → f.stages = []
  engine : ∀ cache, engine = some cache → ∀ f, cache.outcome = some (.error f) → f.stages = []

namespace Unstaged

variable {t : Translator} {engine : Option (EngineCache World)} {f : Failure}

theorem unwrap {answer : Option Json} (h : Translator.unwrap answer = .error f) : f.stages = [] := by
  unfold Translator.unwrap at h
  split at h
  · cases h
    rfl
  · cases h
    rfl
  · split at h
    · cases h
    · cases h
      rfl
  · cases h
    rfl

theorem translate {i : Invoker} {source : Text} {w w' : World} (hu : Unstaged i.translator engine)
    (h : i.translate source w = (.error f, w')) : f.stages = [] := by
  rcases i.translate_cases source w with ⟨text, hio⟩ | ⟨path, disk, hcall⟩
  · rw [hio] at h
    cases h
    rfl
  · rw [hcall] at h
    split at h
    · exact unwrap (congrArg Prod.fst h)
    · next hcompile =>
      cases h
      exact hu.translator _ _ _ (congrArg Prod.fst hcompile)

/-- The engine is there, or what keeps it away bears no stage. -/
theorem get (hu : Unstaged t engine) {cache cache' : EngineCache World} (hc : engine = some cache)
    {w w' : World} (h : EngineCache.get (cache, w) = (.error f, cache', w')) : f.stages = [] := by
  cases houtcome : cache.outcome with
  | some outcome =>
      rw [EngineCache.get_of_some houtcome] at h
      cases h
      exact hu.engine cache hc f houtcome
  | none =>
      cases hbuilt : cache.factory w with
      | mk built w₁ =>
        rw [EngineCache.get_of_none houtcome hbuilt] at h
        cases built with
        | ok e => cases h
        | error text =>
            cases h
            rfl

theorem evaluate {s s' : Session} (hu : Unstaged t engine) (hs : s.engine = engine) {artifact : Text}
    (h : Session.evaluate artifact s = (.error f, s')) : f.stages = [] := by
  cases hengine : s.engine with
  | none =>
      rw [Session.evaluate_of_none hengine] at h
      cases h
      rfl
  | some cache =>
      cases hget : EngineCache.get (cache, s.world) with
      | mk result state =>
        cases result with
        | error g =>
            rw [Session.evaluate_of_some hengine (EngineCache.evaluate_of_get_error hget)] at h
            cases h
            exact hu.get (hs.symm.trans hengine) hget
        | ok e =>
            cases hanswer : e.eval artifact state.2 with
            | mk answer w =>
              rw [Session.evaluate_of_some hengine (EngineCache.evaluate_of_get hget hanswer)] at h
              cases answer with
              | ok v => cases h
              | error text =>
                  cases h
                  rfl

end Unstaged

/-! ## Calls of the collaborators -/

/-- A call of a collaborator. -/
inductive Event
  /-- The translator is called. -/
  | translated
  /-- The factory of the engine is called. -/
  | built
  /-- The engine is called. -/
  | evaluated
deriving DecidableEq

/-- An engine that the cache holds, or that its factory can give. -/
def EngineCache.Supplies (cache : EngineCache World) (e : Engine World) : Prop :=
  cache.outcome = some (.ok e) ∨ ∃ w, (cache.factory w).1 = .ok e

theorem EngineCache.supplies_of_get {cache : EngineCache World} {e : Engine World} {w : World}
    (h : (EngineCache.get (cache, w)).1 = .ok e) : cache.Supplies e := by
  cases houtcome : cache.outcome with
  | some outcome =>
      rw [EngineCache.get_of_some houtcome] at h
      exact .inl (houtcome.trans (congrArg some h))
  | none =>
      cases hbuilt : cache.factory w with
      | mk built w' =>
        rw [EngineCache.get_of_none houtcome hbuilt] at h
        cases built with
        | ok e' =>
            cases h
            exact .inr ⟨w, congrArg Prod.fst hbuilt⟩
        | error text => cases h

/-- A log of the calls that can be read off the world: each call adds its event, and writing a file adds
none. -/
structure Observes (log : World → List Event) (t : Translator) (engine : Option (EngineCache World)) :
    Prop where
  disk : ∀ (w : World) (disk : Disk), log { w with disk := disk } = log w
  translated : ∀ arguments w, log (t.compile arguments w).2 = log w ++ [.translated]
  built : ∀ cache, engine = some cache → ∀ w, log (cache.factory w).2 = log w ++ [.built]
  evaluated : ∀ cache, engine = some cache → ∀ e, cache.Supplies e → ∀ artifact w,
    log (e.eval artifact w).2 = log w ++ [.evaluated]

namespace Observes

variable {log : World → List Event} {t : Translator} {engine : Option (EngineCache World)}

/-- Translating a text calls the translator at most once. -/
theorem translate {i : Invoker} (ho : Observes log i.translator engine) (source : Text) (w : World) :
    ∃ events, log (i.translate source w).2 = log w ++ events ∧ events.Sublist [.translated] := by
  rcases i.translate_cases source w with ⟨text, hio⟩ | ⟨path, disk, hcall⟩
  · exact ⟨[], by rw [hio, List.append_nil], List.nil_sublist _⟩
  · refine ⟨[.translated], ?_, List.Sublist.refl _⟩
    have hlog := ho.translated (Invoker.arguments path) { w with disk := disk }
    rw [ho.disk w disk] at hlog
    rw [hcall, ← hlog]
    split
    · next hcompile => rw [hcompile]
    · next hcompile => rw [hcompile]

theorem get (ho : Observes log t engine) {cache : EngineCache World} (hc : engine = some cache)
    (w : World) : ∃ events, log (EngineCache.get (cache, w)).2.2 = log w ++ events ∧
      events.Sublist [.built] := by
  cases houtcome : cache.outcome with
  | some outcome =>
      rw [EngineCache.get_of_some houtcome]
      exact ⟨[], (List.append_nil _).symm, List.nil_sublist _⟩
  | none =>
      cases hbuilt : cache.factory w with
      | mk built w' =>
        have hlog := ho.built cache hc w
        rw [hbuilt] at hlog
        rw [EngineCache.get_of_none houtcome hbuilt]
        exact ⟨[.built], hlog, List.Sublist.refl _⟩

/-- Evaluating an artifact calls the factory at most once and then the engine at most once. -/
theorem evaluate {s : Session} (ho : Observes log t engine) (hs : s.engine = engine)
    (artifact : Text) :
    ∃ events, log (Session.evaluate artifact s).2.world = log s.world ++ events ∧
      events.Sublist [.built, .evaluated] := by
  cases hengine : s.engine with
  | none =>
      rw [Session.evaluate_of_none hengine]
      exact ⟨[], (List.append_nil _).symm, List.nil_sublist _⟩
  | some cache =>
      have hengine' := hs.symm.trans hengine
      obtain ⟨events, hlog, hevents⟩ := ho.get hengine' s.world
      cases hget : EngineCache.get (cache, s.world) with
      | mk result state =>
        rw [hget] at hlog
        cases result with
        | error f =>
            rw [Session.evaluate_of_some hengine (EngineCache.evaluate_of_get_error hget)]
            exact ⟨events, hlog, hevents.trans (by simp)⟩
        | ok e =>
            have hsupplies := EngineCache.supplies_of_get (congrArg Prod.fst hget)
            have hlog' := ho.evaluated cache hengine' e hsupplies artifact state.2
            cases hanswer : e.eval artifact state.2 with
            | mk answer w =>
              rw [hanswer, hlog, List.append_assoc] at hlog'
              rw [Session.evaluate_of_some hengine (EngineCache.evaluate_of_get hget hanswer)]
              exact ⟨events ++ [.evaluated], hlog', hevents.append_right _⟩

end Observes

end Crosscheck
