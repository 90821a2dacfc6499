import Crosscheck.Proofs.Checker.FailClosed
/-!
# One attempt to build the engine

Calls of several kinds and of several checkers come to one shared engine. Whatever the calls and their
number, the engine is built when the first of them comes to it, never again, and all of them see what that
attempt gave: the same engine, or the same failure. A call that does not come to the engine leaves it alone.
-/

namespace Crosscheck

namespace EngineCache

variable {σ : Type} {cache cache' : EngineCache σ} {s s' : σ}

/-- The result of an evaluation in state `s` by what the attempt to build the engine gave. -/
def resultWith (o : Except Failure (Engine σ)) (artifact : Text) (s : σ) : Except Failure Value :=
  match o with
  | .error f => .error f
  | .ok e => answered artifact (e.eval artifact s).1

/-- The state that such an evaluation leaves. -/
def stateWith (o : Except Failure (Engine σ)) (artifact : Text) (s : σ) : σ :=
  match o with
  | .error _ => s
  | .ok e => (e.eval artifact s).2

theorem evaluate_eq {o : Except Failure (Engine σ)} (artifact : Text)
    (h : get (cache, s) = (o, cache', s')) :
    evaluate artifact (cache, s) = (resultWith o artifact s', cache', stateWith o artifact s') := by
  cases o with
  | error f => exact evaluate_of_get_error h
  | ok e => exact evaluate_of_get h rfl

end EngineCache

open EngineCache (resultWith stateWith)

/-- A call that may come to the shared engine, or something else that happens between such calls. -/
inductive Visit
  /-- The engine is asked for. -/
  | get
  /-- An artifact is evaluated without a checker. -/
  | bridge (artifact : Text)
  /-- An artifact is evaluated through a checker. -/
  | evaluate (artifact : Text)
  /-- A snippet is checked. -/
  | check (c : Checker) (r : Checker.Request) (expected : Value) (site : Checker.Site)
  /-- The world changes. -/
  | elsewhere (change : World → World)

namespace Visit

/-- What a call gives. -/
inductive Answer
  | engine (r : Except Failure (Engine World))
  | value (r : Except Failure Value)
  | checked (r : Except Failure (Checker.Inline × Value))
  | nothing

/-- Carry out a call. -/
def run : Visit → Session → Answer × Session
  | .get, s => (Session.inEngine EngineCache.get s).map .engine id
  | .bridge artifact, s => (Session.evaluate artifact s).map .value id
  | .evaluate artifact, s => (Checker.evaluate artifact s).map .value id
  | .check c r expected site, s => (c.check r expected site s).map .checked id
  | .elsewhere change, s => (.nothing, { s with world := change s.world })

/-- The session after some calls. -/
def after (visits : List Visit) (s : Session) : Session := visits.foldl (fun s v => (v.run s).2) s

/-- The call comes to the engine, in the world `w`. A check does so if its snippet is located and translated
and the end of the translation passes the comparison. -/
def Comes : Visit → Session → World → Prop
  | .check c r _ site, s, w => ∃ x, c.Compared r site s x w
  | .elsewhere _, _, _ => False
  | _, s, w => w = s.world

/-- The result of a check of a translation whose evaluation has the result `r`. -/
def verdict (expected : Value) (x : Checker.Inline) :
    Except Failure Value → Except Failure (Checker.Inline × Value)
  | .error f => .error f
  | .ok v => if v.equals expected then .ok (x, v) else .error (.mismatch expected.display v.display)

/-- What a call gives that comes to the engine and sees `o` as the outcome of the attempt to build it, in a
world `w`. -/
def Answers (o : Except Failure (Engine World)) (w : World) : Visit → Session → Answer → Prop
  | .get, _, a => a = .engine o
  | .bridge artifact, _, a => a = .value (resultWith o artifact w)
  | .evaluate artifact, _, a =>
    a = .value ((resultWith o artifact w).mapError (Failure.during .evaluate))
  | .check c r expected site, s, a => ∃ x before, c.Compared r site s x before ∧
    a = .checked (verdict expected x
      ((resultWith o x.translated w).mapError (Failure.during .evaluate)))
  | .elsewhere _, _, _ => True

variable {v : Visit} {visits : List Visit} {s : Session} {cache cache' : EngineCache World} {w w' : World}
  {o : Except Failure (Engine World)}

/-! ## One call -/

theorem evaluate_session (artifact : Text) (hs : s.engine = some cache)
    (h : EngineCache.get (cache, s.world) = (o, cache', w')) :
    Session.evaluate artifact s = (resultWith o artifact w', ⟨stateWith o artifact w', some cache'⟩) :=
  Session.evaluate_of_some hs (EngineCache.evaluate_eq artifact h)

theorem evaluate_checker (artifact : Text) (hs : s.engine = some cache)
    (h : EngineCache.get (cache, s.world) = (o, cache', w')) :
    Checker.evaluate artifact s = ((resultWith o artifact w').mapError (Failure.during .evaluate),
      ⟨stateWith o artifact w', some cache'⟩) := by
  have heval := evaluate_session artifact hs h
  cases hr : resultWith o artifact w' with
  | ok v =>
      rw [hr] at heval
      exact Checker.evaluate_ok heval
  | error f =>
      rw [hr] at heval
      exact Checker.evaluate_error heval

/-- A check that comes to the engine is settled by the result of the evaluation. -/
theorem check_of_compared {c : Checker} {r : Checker.Request} {expected : Value} {site : Checker.Site}
    {x : Checker.Inline} {result : Except Failure Value} {s' : Session} (h : c.Compared r site s x w)
    (heval : Checker.evaluate x.translated { s with world := w } = (result, s')) :
    c.check r expected site s = (verdict expected x result, s') := by
  rw [Checker.check, Attempt.bind_ok (Checker.inWorld_of_translated h.1),
    Attempt.bind_ok (Checker.compareTail_of_compared h)]
  cases result with
  | error f => exact Attempt.bind_error heval
  | ok v =>
      rw [Attempt.bind_ok heval]
      by_cases hvalues : v.equals expected
      · rw [Checker.compareValues_of_equals hvalues, verdict, if_pos hvalues]
        rfl
      · rw [Checker.compareValues_of_ne hvalues, verdict, if_neg hvalues]
        rfl

/-- The worlds that a checker can leave without coming to the engine. -/
def Translating (c : Checker) (before after : World) : Prop :=
  after = before ∨ ∃ source, after = (c.invoker.translate source before).2

/-- A check that does not come to the engine leaves it as it is. -/
theorem check_of_not_compared {c : Checker} {r : Checker.Request} (expected : Value)
    {site : Checker.Site} (h : ∀ x w, ¬ c.Compared r site s x w) :
    ∃ w, (c.check r expected site s).2 = { s with world := w } ∧ Translating c s.world w := by
  rcases c.passes_or_failsFirst r expected site s with ⟨x, v, s', hpasses⟩ | ⟨step, f, s', hfails⟩
  · obtain ⟨⟨w, hcompared, -⟩, -⟩ := hpasses
    exact absurd hcompared (h x w)
  · rw [Checker.check_of_failsFirst hfails]
    cases hfails with
    | locate => exact ⟨s.world, rfl, .inl rfl⟩
    | @translate snippet _ w before failed => exact ⟨w, rfl, .inr ⟨_, congrArg Prod.snd failed.symm⟩⟩
    | @compareTail x _ _ w before =>
        obtain ⟨snippet, answer, -, htranslate, -⟩ := before
        exact ⟨w, rfl, .inr ⟨_, congrArg Prod.snd htranslate.symm⟩⟩
    | evaluate before => exact absurd before (h _ _)
    | compareValues before =>
        obtain ⟨w, hcompared, -⟩ := before
        exact absurd hcompared (h _ w)

/-- A call that comes to the engine gets it from the cache once, and goes by what it got. -/
theorem run_of_comes (hs : s.engine = some cache) (hv : v.Comes s w)
    (h : EngineCache.get (cache, w) = (o, cache', w')) :
    v.Answers o w' s (v.run s).1 ∧ (v.run s).2.engine = some cache' ∧
      ((v.run s).2.world = w' ∨ ∃ artifact, (v.run s).2.world = stateWith o artifact w') := by
  cases v with
  | get =>
      obtain rfl : w = s.world := hv
      have hrun : Session.inEngine EngineCache.get s = (o, ⟨w', some cache'⟩) := by
        simp only [Session.inEngine, hs, h]
      rw [run, hrun]
      exact ⟨rfl, rfl, .inl rfl⟩
  | bridge artifact =>
      obtain rfl : w = s.world := hv
      rw [run, evaluate_session artifact hs h]
      exact ⟨rfl, rfl, .inr ⟨artifact, rfl⟩⟩
  | evaluate artifact =>
      obtain rfl : w = s.world := hv
      rw [run, evaluate_checker artifact hs h]
      exact ⟨rfl, rfl, .inr ⟨artifact, rfl⟩⟩
  | check c r expected site =>
      obtain ⟨x, hcompared⟩ := hv
      have heval := evaluate_checker (s := { s with world := w }) x.translated hs h
      rw [run, check_of_compared hcompared heval]
      exact ⟨⟨x, w, hcompared, rfl⟩, rfl, .inr ⟨x.translated, rfl⟩⟩
  | elsewhere => exact hv.elim

/-- A call that does not come to the engine leaves it as it is. -/
theorem engine_run_of_not_comes (hv : ∀ w, ¬ v.Comes s w) : (v.run s).2.engine = s.engine := by
  cases v with
  | check c r expected site =>
      obtain ⟨w, hcheck, -⟩ := check_of_not_compared expected fun x w h => hv w ⟨x, h⟩
      change (c.check r expected site s).2.engine = s.engine
      rw [hcheck]
  | elsewhere => rfl
  | _ => exact absurd rfl (hv s.world)

/-! ## Any number of calls -/

/-- The first of the calls that comes to the engine does so in this world. -/
def FirstComes : List Visit → Session → World → Prop
  | [], _, _ => False
  | v :: visits, s, w => v.Comes s w ∨ (∀ w, ¬ v.Comes s w) ∧ FirstComes visits (v.run s).2 w

/-- Every one of the calls that comes to the engine sees `o` as the outcome of the attempt to build it. -/
def AllSee (o : Except Failure (Engine World)) : List Visit → Session → Prop
  | [], _ => True
  | v :: visits, s => ((∃ w, v.Comes s w) → ∃ w, v.Answers o w s (v.run s).1) ∧ AllSee o visits (v.run s).2

/-- Once the attempt was made, it is what every call sees. -/
theorem settled_after (visits : List Visit) (hs : s.engine = some cache) (ho : cache.outcome = some o) :
    AllSee o visits s ∧ (after visits s).engine = some cache := by
  induction visits generalizing s with
  | nil => exact ⟨trivial, hs⟩
  | cons v visits ih =>
      by_cases hv : ∃ w, v.Comes s w
      · obtain ⟨w, hv⟩ := hv
        obtain ⟨hanswer, hengine, -⟩ := run_of_comes hs hv (EngineCache.get_of_some ho)
        obtain ⟨hall, hafter⟩ := ih hengine
        exact ⟨⟨fun _ => ⟨w, hanswer⟩, hall⟩, hafter⟩
      · have hengine := (engine_run_of_not_comes (not_exists.mp hv)).trans hs
        obtain ⟨hall, hafter⟩ := ih hengine
        exact ⟨⟨fun h => absurd h hv, hall⟩, hafter⟩

/-- The outcome of an attempt to build the engine. -/
def attempt (factory : EngineFactory World) (w : World) : Except Failure (Engine World) :=
  (factory w).1.mapError .engineUnavailable

theorem built_of_attempt {factory : EngineFactory World} {e : Engine World}
    (h : attempt factory w = .ok e) : (factory w).1 = .ok e := by
  rw [attempt] at h
  cases hbuilt : (factory w).1 with
  | ok e' =>
      rw [hbuilt] at h
      cases h
      rfl
  | error text =>
      rw [hbuilt] at h
      cases h

/-- The first call that comes to the engine has it built. -/
theorem fresh_after {factory : EngineFactory World} (visits : List Visit)
    (hs : s.engine = some (.ofFactory factory)) :
    (∀ w, FirstComes visits s w → AllSee (attempt factory w) visits s ∧
      (after visits s).engine = some ⟨factory, some (attempt factory w), 1⟩) ∧
    ((∀ w, ¬ FirstComes visits s w) → (∀ o, AllSee o visits s) ∧
      (after visits s).engine = some (.ofFactory factory)) := by
  -- Until the first such call the cache stays as it was made, which is what the induction goes by; from that
  -- call on its outcome is there, and nothing has it built again.
  induction visits generalizing s with
  | nil => exact ⟨fun _ => False.elim, fun _ => ⟨fun _ => trivial, hs⟩⟩
  | cons v visits ih =>
      constructor
      · rintro w (hv | ⟨hv, hrest⟩)
        · have hget : EngineCache.get (.ofFactory factory, w) =
              (attempt factory w, ⟨factory, some (attempt factory w), 1⟩, (factory w).2) :=
            EngineCache.get_of_none rfl rfl
          obtain ⟨hanswer, hengine, -⟩ := run_of_comes hs hv hget
          obtain ⟨hall, hafter⟩ := settled_after visits hengine rfl
          exact ⟨⟨fun _ => ⟨_, hanswer⟩, hall⟩, hafter⟩
        · obtain ⟨hall, hafter⟩ := (ih ((engine_run_of_not_comes hv).trans hs)).1 w hrest
          exact ⟨⟨fun h => absurd h (not_exists.mpr hv), hall⟩, hafter⟩
      · intro h
        have hv (w : World) : ¬ v.Comes s w := fun hv => h w (.inl hv)
        obtain ⟨hall, hafter⟩ := (ih ((engine_run_of_not_comes hv).trans hs)).2
          fun w hrest => h w (.inr ⟨hv, hrest⟩)
        exact ⟨fun o => ⟨fun h => absurd h (not_exists.mpr hv), hall o⟩, hafter⟩

/-! ## Counting the attempts -/

/-- A count of the runs of a factory that can be read off the world: a run adds one, and neither writing a
file nor an engine that the factory gave adds any. -/
structure Counts (count : World → Nat) (factory : EngineFactory World) : Prop where
  disk : ∀ (w : World) (disk : Disk), count { w with disk := disk } = count w
  built : ∀ w, count (factory w).2 = count w + 1
  evaluated : ∀ w₀ e, (factory w₀).1 = .ok e → ∀ artifact w, count (e.eval artifact w).2 = count w

/-- Nothing but the engine has the factory run: the translator of the call does not, nor does what happens
elsewhere. -/
def Neutral (count : World → Nat) : Visit → Prop
  | .check c _ _ _ => ∀ arguments w, count (c.invoker.translator.compile arguments w).2 = count w
  | .elsewhere change => ∀ w, count (change w) = count w
  | _ => True

variable {count : World → Nat} {factory : EngineFactory World}

theorem Counts.translating (hc : Counts count factory) {c : Checker}
    (hn : ∀ arguments w, count (c.invoker.translator.compile arguments w).2 = count w)
    (h : Translating c w w') : count w' = count w := by
  rcases h with rfl | ⟨source, rfl⟩
  · rfl
  · rcases c.invoker.translate_cases source w with ⟨text, hio⟩ | ⟨path, disk, hcall⟩
    · rw [hio]
    · have hcount := hn (Invoker.arguments path) { w with disk := disk }
      rw [hc.disk w disk] at hcount
      rw [hcall, ← hcount]
      split <;> next hcompile => rw [hcompile]

theorem Counts.comes (hc : Counts count factory) (hn : v.Neutral count) (hv : v.Comes s w) :
    count w = count s.world := by
  cases v with
  | check c r expected site =>
      obtain ⟨x, ⟨snippet, answer, -, htranslate, -⟩, -⟩ := hv
      exact hc.translating hn (.inr ⟨_, congrArg Prod.snd htranslate.symm⟩)
  | elsewhere => exact hv.elim
  | _ => rw [hv]

/-- A call that does not come to the engine has the factory not run. -/
theorem Counts.run_of_not_comes (hc : Counts count factory) (hn : v.Neutral count)
    (hv : ∀ w, ¬ v.Comes s w) : count (v.run s).2.world = count s.world := by
  cases v with
  | check c r expected site =>
      obtain ⟨w, hcheck, htranslating⟩ :=
        check_of_not_compared expected fun x w h => hv w ⟨x, h⟩
      change count (c.check r expected site s).2.world = _
      rw [hcheck]
      exact hc.translating hn htranslating
  | elsewhere change => exact hn s.world
  | _ => exact absurd rfl (hv s.world)

/-- The cache has this factory, and no engine that the factory did not give. -/
structure Holds (factory : EngineFactory World) (cache : EngineCache World) : Prop where
  same : cache.factory = factory
  engine : ∀ e, cache.outcome = some (.ok e) → ∃ w, (factory w).1 = .ok e

/-- The cache counts the runs of its factory. -/
theorem Counts.get (hc : Counts count factory) (hcache : Holds factory cache)
    (h : EngineCache.get (cache, w) = (o, cache', w')) :
    count w' + cache.attempts = count w + cache'.attempts ∧ Holds factory cache' ∧
      ∀ e, o = .ok e → ∃ w, (factory w).1 = .ok e := by
  cases houtcome : cache.outcome with
  | some outcome =>
      rw [EngineCache.get_of_some houtcome] at h
      cases h
      exact ⟨rfl, hcache, fun e he => hcache.engine e (houtcome.trans (congrArg some he))⟩
  | none =>
      have hbuilt : cache.factory w = ((factory w).1, (factory w).2) := by
        rw [hcache.same]
        rfl
      rw [EngineCache.get_of_none houtcome hbuilt] at h
      cases h
      refine ⟨?_, ⟨hcache.same, fun e he => ⟨w, built_of_attempt (Option.some.inj he)⟩⟩,
        fun e he => ⟨w, built_of_attempt he⟩⟩
      simp only [hc.built w]
      omega

theorem Counts.stateWith (hc : Counts count factory) (ho : ∀ e, o = .ok e → ∃ w, (factory w).1 = .ok e)
    (artifact : Text) (w : World) : count (EngineCache.stateWith o artifact w) = count w := by
  cases o with
  | error f => rfl
  | ok e =>
      obtain ⟨w₀, he⟩ := ho e rfl
      exact hc.evaluated w₀ e he artifact w

/-- After any calls the cache has counted the runs of its factory. -/
theorem Counts.after (hc : Counts count factory) (visits : List Visit) (hn : ∀ v ∈ visits, v.Neutral count)
    (hs : s.engine = some cache) (hcache : Holds factory cache) :
    ∃ cache', (after visits s).engine = some cache' ∧
      count (after visits s).world + cache.attempts = count s.world + cache'.attempts := by
  induction visits generalizing s cache with
  | nil => exact ⟨cache, hs, rfl⟩
  | cons v visits ih =>
      rw [List.forall_mem_cons] at hn
      by_cases hv : ∃ w, v.Comes s w
      · obtain ⟨w, hv⟩ := hv
        cases hget : EngineCache.get (cache, w) with
        | mk o state =>
          obtain ⟨hcount, hcache', hgiven⟩ := hc.get hcache hget
          obtain ⟨-, hengine, hworld⟩ := run_of_comes hs hv hget
          obtain ⟨cache'', hafter, htotal⟩ := ih hn.2 hengine hcache'
          have hbefore := hc.comes hn.1 hv
          have hbehind : count (v.run s).2.world = count state.2 := by
            rcases hworld with hworld | ⟨artifact, hworld⟩
            · rw [hworld]
            · rw [hworld, hc.stateWith hgiven]
          refine ⟨cache'', hafter, ?_⟩
          rw [hbehind] at htotal
          change count (Visit.after visits (v.run s).2).world + _ = _
          omega
      · have hsame := hc.run_of_not_comes hn.1 (not_exists.mp hv)
        obtain ⟨cache', hafter, htotal⟩ :=
          ih hn.2 ((engine_run_of_not_comes (not_exists.mp hv)).trans hs) hcache
        rw [hsame] at htotal
        exact ⟨cache', hafter, htotal⟩

/-- Whatever calls are made of a shared engine that is still to be built: all that come to it see one
outcome, which is what its factory gives in the world in which the first of them comes. The cache counts one
attempt as soon as there is such a call and none before, and so often the factory was run. -/
theorem one_attempt (factory : EngineFactory World) (visits : List Visit) (w : World) :
    ∃ o cache, AllSee o visits ⟨w, some (.ofFactory factory)⟩ ∧
      (after visits ⟨w, some (.ofFactory factory)⟩).engine = some cache ∧
      (∀ w₁, FirstComes visits ⟨w, some (.ofFactory factory)⟩ w₁ →
        o = attempt factory w₁ ∧ cache = ⟨factory, some o, 1⟩) ∧
      ((∀ w₁, ¬ FirstComes visits ⟨w, some (.ofFactory factory)⟩ w₁) → cache = ⟨factory, none, 0⟩) ∧
      ∀ count, Counts count factory → (∀ v ∈ visits, v.Neutral count) →
        count (after visits ⟨w, some (.ofFactory factory)⟩).world = count w + cache.attempts := by
  obtain ⟨hcome, hnone⟩ := fresh_after (s := ⟨w, some (.ofFactory factory)⟩) visits rfl
  have hcount {cache : EngineCache World}
      (hafter : (after visits ⟨w, some (.ofFactory factory)⟩).engine = some cache) :
      ∀ count, Counts count factory → (∀ v ∈ visits, v.Neutral count) →
        count (after visits ⟨w, some (.ofFactory factory)⟩).world = count w + cache.attempts := by
    intro count hc hn
    obtain ⟨cache', hafter', htotal⟩ := hc.after (s := ⟨w, some (.ofFactory factory)⟩) visits hn rfl
      ⟨rfl, fun e he => by cases he⟩
    obtain rfl := Option.some.inj (hafter.symm.trans hafter')
    exact htotal
  by_cases h : ∃ w₁, FirstComes visits ⟨w, some (.ofFactory factory)⟩ w₁
  · obtain ⟨w₁, hfirst⟩ := h
    obtain ⟨hall, hafter⟩ := hcome w₁ hfirst
    refine ⟨attempt factory w₁, _, hall, hafter, ?_, fun h => absurd hfirst (h w₁), hcount hafter⟩
    intro w₂ hfirst'
    have hsame := hafter.symm.trans (hcome w₂ hfirst').2
    simp only [Option.some.injEq, EngineCache.mk.injEq, true_and, and_true] at hsame
    exact ⟨hsame, rfl⟩
  · obtain ⟨hall, hafter⟩ := hnone (not_exists.mp h)
    exact ⟨attempt factory w, _, hall _, hafter, fun w₁ h' => absurd ⟨w₁, h'⟩ h, fun _ => rfl,
      hcount hafter⟩

/-- A factory that fails the first time and would succeed afterwards. -/
private def changing : EngineFactory World := fun w =>
  (if w.output = [] then .error "no" else .ok (Engine.rehearsed .sums), { w with output := w.output ++ [0] })

theorem one_attempt_changing : ∃ (o : Except Failure (Engine World)) (cache : EngineCache World),
    AllSee o [.get, .bridge "1", .evaluate "1"] ⟨⟨⟨[]⟩, [], [], [], []⟩, some (.ofFactory changing)⟩ ∧
    o = .error (.engineUnavailable "no") ∧ cache.attempts = 1 ∧
    (after [.get, .bridge "1", .evaluate "1"]
      ⟨⟨⟨[]⟩, [], [], [], []⟩, some (.ofFactory changing)⟩).world.output.length = cache.attempts := by
  obtain ⟨o, cache, hall, -, hfirst, -, hcount⟩ :=
    one_attempt changing [.get, .bridge "1", .evaluate "1"] ⟨⟨[]⟩, [], [], [], []⟩
  obtain ⟨ho, hcache⟩ := hfirst ⟨⟨[]⟩, [], [], [], []⟩ (.inl rfl)
  have hcounts : Counts (fun w => w.output.length) changing := by
    refine ⟨fun _ _ => rfl, fun _ => by simp [changing], ?_⟩
    intro w₀ e he artifact w
    simp only [changing] at he
    split at he
    · cases he
    · cases he
      rfl
  have htotal := hcount _ hcounts (by simp [Neutral])
  refine ⟨o, cache, hall, ho, by rw [hcache], ?_⟩
  simpa using htotal

end Visit

end Crosscheck
