import Crosscheck.Checker.Inline
import Crosscheck.Proofs.Checker.Collaborators
import Crosscheck.Proofs.Machine.Walk
/-!
# A check ends with its first failing step

The steps of a check are to locate the snippet, to translate it, to compare the end of the translation, to
evaluate the artifact and to compare the values. A check passes exactly if all of them succeed. Otherwise it
reports the first one that fails, and what comes after that step is left alone.
-/

namespace Crosscheck

namespace Checker

/-- The steps of a check, in their order. -/
inductive Step
  | locate | translate | compareTail | evaluate | compareValues
deriving DecidableEq

/-- The stage that a failure of the step is annotated with; a mismatch belongs to none. -/
def Step.stage? : Step → Option Stage
  | .locate => some .locate
  | .translate => some .translate
  | .evaluate => some .evaluate
  | .compareTail | .compareValues => none

/-- What a check reports of a failure of the step. -/
def Step.report (step : Step) (f : Failure) : Failure :=
  match step.stage? with
  | some stage => f.during stage
  | none => f

variable (c : Checker) (r : Request) (expected : Value) (site : Site) (s : Session)

/-- What is handed on of a snippet. -/
def prepared (snippet : Snippet) : Fragment := snippet.fragment.withLeadingLines c.config.prelude

/-- The artifact that is made of an answer of the translator. -/
def artifact (translated : Text) : Text :=
  Artifact.compose ⟨r.testCase, none, false⟩ (c.patcher.patchWith (c.modeFor r) translated)

/-- The snippet is located. -/
def Located (snippet : Snippet) : Prop :=
  s.world.locate site.path site.line c.config.sentinel site.preamble = .ok snippet

/-- The snippet is located and translated, which leaves the world `w`. -/
def Translated (x : Inline) (w : World) : Prop :=
  ∃ snippet answer, c.Located site s snippet ∧
    c.invoker.translate (c.resolver.resolve (c.prepared snippet).text) s.world = (.ok answer, w) ∧
    x = ⟨(c.prepared snippet).text, c.artifact r answer, snippet.expectation, c.prepared snippet⟩

/-- The last lines of a translated text, as many as the literal has, or all of them if there are not that
many. Blanks around the texts and around these lines do not count. -/
def IsTail (literal translated tail : Text) : Prop :=
  ∃ before kept, Text.splitLines (Text.trim translated) = before ++ kept ∧
    kept.length = min (before ++ kept).length (max 1 (Text.lines (Text.trim literal)).length) ∧
    tail = Text.trim (Text.joinLines kept)

/-- Besides, the literal, if there is one, is what the translation ends with. -/
def Compared (x : Inline) (w : World) : Prop :=
  c.Translated r site s x w ∧
    ∀ literal, x.expectation = some literal → IsTail literal x.translated (Text.trim literal)

/-- Besides, the artifact has a value. -/
def Evaluated (x : Inline) (v : Value) (s' : Session) : Prop :=
  ∃ w, c.Compared r site s x w ∧
    Session.evaluate x.translated { s with world := w } = (.ok v, s')

/-- All steps succeed: besides, the value is the expected one. -/
def Passes (x : Inline) (v : Value) (s' : Session) : Prop :=
  c.Evaluated r site s x v s' ∧ v.equals expected

/-- The first step that fails, the failure that it raises itself, and the session that it leaves. The two
comparisons fail with what was expected and what there is instead. -/
inductive FailsFirst : Step → Failure → Session → Prop
  | locate {f : Failure}
      (failed : s.world.locate site.path site.line c.config.sentinel site.preamble = .error f) :
      FailsFirst .locate f s
  | translate {snippet : Snippet} {f : Failure} {w : World} (before : c.Located site s snippet)
      (failed : c.invoker.translate (c.resolver.resolve (c.prepared snippet).text) s.world =
        (.error f, w)) :
      FailsFirst .translate f { s with world := w }
  | compareTail {x : Inline} {literal tail : Text} {w : World} (before : c.Translated r site s x w)
      (expects : x.expectation = some literal) (ends : IsTail literal x.translated tail)
      (differs : tail ≠ Text.trim literal) :
      FailsFirst .compareTail (.mismatch literal tail) { s with world := w }
  | evaluate {x : Inline} {f : Failure} {w : World} {s' : Session} (before : c.Compared r site s x w)
      (failed : Session.evaluate x.translated { s with world := w } = (.error f, s')) :
      FailsFirst .evaluate f s'
  | compareValues {x : Inline} {v : Value} {s' : Session} (before : c.Evaluated r site s x v s')
      (differs : ¬ v.equals expected) :
      FailsFirst .compareValues (.mismatch expected.display v.display) s'

variable {c r expected site s} {s' : Session} {f : Failure} {snippet : Snippet} {x : Inline} {w : World}
  {v : Value} {step : Step} {expectation : Option Text} {literal translated tail : Text}

/-! ## The comparisons -/

/-- Dropping all lines but the wanted number of them leaves the tail. -/
theorem isTail_iff : IsTail literal translated tail ↔ tail = tailFor literal translated := by
  rw [IsTail, tailFor]
  constructor
  · rintro ⟨before, kept, hlines, hlength, rfl⟩
    rw [List.length_append] at hlength
    have hdropped : (before ++ kept).length - max 1 (Text.lines (Text.trim literal)).length =
        before.length := by
      rw [List.length_append]
      omega
    rw [hlines, hdropped, List.drop_left]
  · rintro rfl
    refine ⟨_, _, (List.take_append_drop _ _).symm, ?_, rfl⟩
    rw [List.take_append_drop, List.length_drop]
    omega

theorem compareTail_eq_ok_iff : Checker.compareTail expectation translated = .ok () ↔
    ∀ literal, expectation = some literal → IsTail literal translated (Text.trim literal) := by
  cases expectation with
  | none => simp [Checker.compareTail]
  | some literal => simp [Checker.compareTail, isTail_iff, eq_comm]

theorem compareTail_of_ne (h : IsTail literal translated tail) (hne : tail ≠ Text.trim literal) :
    Checker.compareTail (some literal) translated = .error (.mismatch literal tail) := by
  obtain rfl := isTail_iff.mp h
  simp only [Checker.compareTail, if_neg hne]

/-- The translation ends with the literal, if there is one, or with something else. -/
theorem isTail_or_differs (expectation : Option Text) (translated : Text) :
    (∀ literal, expectation = some literal → IsTail literal translated (Text.trim literal)) ∨
      ∃ literal tail, expectation = some literal ∧ IsTail literal translated tail ∧
        tail ≠ Text.trim literal := by
  cases expectation with
  | none => exact .inl fun _ h => by cases h
  | some literal =>
      by_cases h : tailFor literal translated = Text.trim literal
      · refine .inl fun other hother => ?_
        obtain rfl := Option.some.inj hother
        exact isTail_iff.mpr h.symm
      · exact .inr ⟨literal, _, rfl, isTail_iff.mpr rfl, h⟩

theorem compareValues_of_equals (h : v.equals expected) : Checker.compareValues expected v = .ok () :=
  if_pos h

theorem compareValues_of_ne (h : ¬ v.equals expected) :
    Checker.compareValues expected v = .error (.mismatch expected.display v.display) :=
  if_neg h

/-! ## What a check does after each step -/

theorem run_ok {source answer : Text} {w w' : World}
    (h : c.invoker.translate (c.resolver.resolve source) w = (.ok answer, w')) :
    c.run r none false source w = (.ok (c.artifact r answer), w') := by
  rw [run, Attempt.bind_ok (World.during_ok h)]
  rfl

theorem run_error {source : Text} {w w' : World}
    (h : c.invoker.translate (c.resolver.resolve source) w = (.error f, w')) :
    c.run r none false source w = (.error (f.during .translate), w') := by
  rw [run, Attempt.bind_error (World.during_error h)]

theorem located_of_readText {code : Text} (hread : s.world.readText site.path = .ok code)
    (hlocate : Snippet.locate code site.path site.line c.config.sentinel site.preamble = .ok snippet) :
    c.Located site s snippet := by
  simp only [Located, World.locate, hread, hlocate]

/-- A snippet of a file in the root directory is located in the text of that file. -/
theorem located_of_entry {name code : Text} {executable : Bool} (hname : Path.IsName name)
    (hpath : site.path = Path.join ['/'] name)
    (hentry : s.world.disk.entry? [name] = some (.file (Utf8.encode code) executable))
    (hlocate : Snippet.locate code site.path site.line c.config.sentinel site.preamble = .ok snippet) :
    c.Located site s snippet := by
  have hread := s.world.leads_root.readText_join hname hentry
  rw [← hpath] at hread
  exact located_of_readText hread hlocate

theorem translated_of_answer {answer : Text} (h : c.Located site s snippet)
    (hanswer : (c.invoker.translate (c.resolver.resolve (c.prepared snippet).text) s.world).1 = .ok answer) :
    c.Translated r site s
      ⟨(c.prepared snippet).text, c.artifact r answer, snippet.expectation, c.prepared snippet⟩
      (c.invoker.translate (c.resolver.resolve (c.prepared snippet).text) s.world).2 :=
  ⟨snippet, answer, h, Prod.ext hanswer rfl, rfl⟩

theorem inline_of_located (h : c.Located site s snippet) :
    World.during .locate (c.locate site) s.world = (.ok snippet, s.world) :=
  World.during_ok (congrArg (·, s.world) h)

theorem inline_of_translated (h : c.Translated r site s x w) :
    c.inline r site s.world = (.ok x, w) := by
  obtain ⟨snippet, answer, hlocated, htranslated, rfl⟩ := h
  rw [inline, Attempt.bind_ok (inline_of_located hlocated)]
  exact Attempt.bind_ok (run_ok htranslated)

/-- A snippet that is not located is not translated. -/
theorem inline_of_unlocated
    (h : s.world.locate site.path site.line c.config.sentinel site.preamble = .error f) :
    c.inline r site s.world = (.error (f.during .locate), s.world) := by
  rw [inline]
  exact Attempt.bind_error (World.during_error (congrArg (·, s.world) h))

theorem inline_of_untranslated (h : c.Located site s snippet)
    (failed : c.invoker.translate (c.resolver.resolve (c.prepared snippet).text) s.world = (.error f, w)) :
    c.inline r site s.world = (.error (f.during .translate), w) := by
  rw [inline, Attempt.bind_ok (inline_of_located h)]
  exact Attempt.bind_error (run_error failed)

theorem inWorld_of_translated (h : c.Translated r site s x w) :
    Session.inWorld (c.inline r site) s = (.ok x, { s with world := w }) := by
  rw [Session.inWorld, inline_of_translated h]

theorem compareTail_of_compared (h : c.Compared r site s x w) :
    (liftM (Checker.compareTail x.expectation x.translated) : Attempt Session Unit)
      { s with world := w } = (.ok (), { s with world := w }) := by
  rw [compareTail_eq_ok_iff.mpr h.2]
  rfl

theorem evaluate_ok {artifact : Text} {s₀ : Session}
    (h : Session.evaluate artifact s₀ = (.ok v, s')) : evaluate artifact s₀ = (.ok v, s') :=
  World.during_ok h

theorem evaluate_error {artifact : Text} {s₀ : Session}
    (h : Session.evaluate artifact s₀ = (.error f, s')) :
    evaluate artifact s₀ = (.error (f.during .evaluate), s') :=
  World.during_error h

/-- A check in which every step succeeds gives the translation and the value. -/
theorem check_of_passes (h : c.Passes r expected site s x v s') :
    c.check r expected site s = (.ok (x, v), s') := by
  obtain ⟨⟨w, hcompared, hevaluated⟩, hvalues⟩ := h
  rw [check, Attempt.bind_ok (inWorld_of_translated hcompared.1),
    Attempt.bind_ok (compareTail_of_compared hcompared),
    Attempt.bind_ok (evaluate_ok hevaluated), compareValues_of_equals hvalues]
  rfl

/-- A check reports the first step that fails. -/
theorem check_of_failsFirst (h : c.FailsFirst r expected site s step f s') :
    c.check r expected site s = (.error (step.report f), s') := by
  cases h with
  | locate failed =>
      have hinline : Session.inWorld (c.inline r site) s = (.error (f.during .locate), s) := by
        rw [Session.inWorld, inline_of_unlocated failed]
      rw [check, Attempt.bind_error hinline]
      rfl
  | @translate snippet _ w before failed =>
      have hinline : Session.inWorld (c.inline r site) s =
          (.error (f.during .translate), { s with world := w }) := by
        rw [Session.inWorld, inline_of_untranslated before failed]
      rw [check, Attempt.bind_error hinline]
      rfl
  | compareTail before expects ends differs =>
      rw [check, Attempt.bind_ok (inWorld_of_translated before), expects, compareTail_of_ne ends differs]
      rfl
  | evaluate before failed =>
      rw [check, Attempt.bind_ok (inWorld_of_translated before.1),
        Attempt.bind_ok (compareTail_of_compared before),
        Attempt.bind_error (evaluate_error failed)]
      rfl
  | compareValues before differs =>
      obtain ⟨w, hcompared, hevaluated⟩ := before
      rw [check, Attempt.bind_ok (inWorld_of_translated hcompared.1),
        Attempt.bind_ok (compareTail_of_compared hcompared),
        Attempt.bind_ok (evaluate_ok hevaluated), compareValues_of_ne differs]
      rfl

/-- A check passes or has a first step that fails. -/
theorem passes_or_failsFirst (c : Checker) (r : Request) (expected : Value) (site : Site)
    (s : Session) : (∃ x v s', c.Passes r expected site s x v s') ∨
      ∃ step f s', c.FailsFirst r expected site s step f s' := by
  cases hlocate : s.world.locate site.path site.line c.config.sentinel site.preamble with
  | error f => exact .inr ⟨_, _, _, .locate hlocate⟩
  | ok snippet =>
    cases htranslate : c.invoker.translate (c.resolver.resolve (c.prepared snippet).text) s.world with
    | mk result w =>
      cases result with
      | error f => exact .inr ⟨_, _, _, .translate hlocate htranslate⟩
      | ok answer =>
        have htranslated : c.Translated r site s _ w := ⟨snippet, answer, hlocate, htranslate, rfl⟩
        rcases isTail_or_differs snippet.expectation (c.artifact r answer) with
          htail | ⟨literal, tail, hexpects, hends, hdiffers⟩
        · have hcompared : c.Compared r site s _ w := ⟨htranslated, htail⟩
          cases hevaluate : Session.evaluate (c.artifact r answer) { s with world := w } with
          | mk result s' =>
            cases result with
            | error f => exact .inr ⟨_, _, _, .evaluate hcompared hevaluate⟩
            | ok v =>
              have hevaluated : c.Evaluated r site s _ v s' := ⟨w, hcompared, hevaluate⟩
              by_cases hvalues : v.equals expected
              · exact .inl ⟨_, v, s', hevaluated, hvalues⟩
              · exact .inr ⟨_, _, _, .compareValues hevaluated hvalues⟩
        · exact .inr ⟨_, _, _, .compareTail htranslated hexpects hends hdiffers⟩

/-! ## What a check reports and whom it calls -/

private def printed (w : World) : List Event :=
  w.output.map fun b => if b = 0 then .translated else if b = 1 then .built else .evaluated

end Checker

end Crosscheck
