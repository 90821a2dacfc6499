import Crosscheck.Proofs.Checker.FailClosed
import Crosscheck.Proofs.Snippet.Location
import Crosscheck.Proofs.Text.Trimming
import Crosscheck.Proofs.Value.Display
/-!
# A mismatch shows a difference

A check reports a mismatch with the texts of both sides. They are never the same: a literal is trimmed when
it is read off its line, so it differs from the end of the translation as it stands, and values that differ
are shown differently.
-/

namespace Crosscheck

namespace Session

variable {s s' : Session} {artifact : Text} {v : Value}

/-- Every engine that there can be answers with JSON values. -/
def AnswersJson (engine : Option (EngineCache World)) : Prop :=
  ∀ cache, engine = some cache → ∀ e, cache.Supplies e → ∀ artifact w j,
    (e.eval artifact w).1 = .ok j → j.WellFormed

theorem exists_json_of_evaluate (hanswers : AnswersJson s.engine)
    (h : evaluate artifact s = (.ok v, s')) : ∃ j : Json, j.WellFormed ∧ v = Value.ofJson j := by
  cases hengine : s.engine with
  | none =>
      rw [evaluate_of_none hengine] at h
      cases h
  | some cache =>
      cases hget : EngineCache.get (cache, s.world) with
      | mk result state =>
        cases result with
        | error f =>
            rw [evaluate_of_some hengine (EngineCache.evaluate_of_get_error hget)] at h
            cases h
        | ok e =>
            have hsupplies := EngineCache.supplies_of_get (congrArg Prod.fst hget)
            cases hanswer : e.eval artifact state.2 with
            | mk answer w =>
              rw [evaluate_of_some hengine (EngineCache.evaluate_of_get hget hanswer)] at h
              cases answer with
              | error text => cases h
              | ok j =>
                  cases h
                  exact ⟨j, hanswers cache hengine e hsupplies artifact _ j (congrArg Prod.fst hanswer), rfl⟩

end Session

namespace Checker

variable {c : Checker} {r : Request} {expected v : Value} {site : Site} {s : Session} {snippet : Snippet}
  {a b : Text}

theorem during_ne_mismatch (stage : Stage) (f : Failure) : f.during stage ≠ .mismatch a b := by
  cases f <;> simp [Failure.during]

/-- A literal is trimmed when it is read off its line. -/
theorem trim_of_located {literal : Text} (h : c.Located site s snippet)
    (hliteral : snippet.expectation = some literal) : Text.trim literal = literal := by
  have hexpects : ∃ closing, Snippet.Expects c.config.sentinel closing snippet.expectation := by
    rw [Located, World.locate] at h
    split at h
    · cases h
    · rw [Snippet.locate.eq_def] at h
      simp only at h
      split at h
      · cases h
      · cases h
        exact ⟨_, Snippet.expects_expectationOn _ _⟩
  obtain ⟨closing, hexpects⟩ := hexpects
  rw [hliteral] at hexpects
  cases hexpects
  exact Text.trim_trim _

/-- Values that differ are shown differently, and so are the sides of every mismatch that a check
reports. -/
theorem mismatch_sides_ne (c : Checker) (r : Request) (site : Site) (hexpected : expected.Converted)
    (hanswers : Session.AnswersJson s.engine) :
    (∀ j : Json, j.WellFormed → ¬ (Value.ofJson j).equals expected →
      expected.display ≠ (Value.ofJson j).display) ∧
    ∀ a b, (c.check r expected site s).1 = .error (.mismatch a b) → a ≠ b := by
  refine ⟨fun j hj => hexpected.display_ne hj, ?_⟩
  intro a b h
  rcases c.passes_or_failsFirst r expected site s with ⟨x, v, s', hpasses⟩ | ⟨step, f, s', hfails⟩
  · rw [check_of_passes hpasses] at h
    cases h
  · rw [check_of_failsFirst hfails] at h
    have hreport : step.report f = .mismatch a b := Except.error.inj h
    -- the other steps annotate their failures
    cases hfails with
    | locate => exact absurd hreport (during_ne_mismatch _ f)
    | translate => exact absurd hreport (during_ne_mismatch _ f)
    | evaluate => exact absurd hreport (during_ne_mismatch _ f)
    | compareTail before expects ends differs =>
        obtain ⟨snippet, _, hlocated, -, rfl⟩ := before
        obtain ⟨rfl, rfl⟩ := Failure.mismatch.inj hreport
        rw [trim_of_located hlocated expects] at differs
        exact differs.symm
    | compareValues before differs =>
        obtain ⟨w, -, hevaluated⟩ := before
        obtain ⟨j, hj, rfl⟩ := Session.exists_json_of_evaluate (s := { s with world := w }) hanswers hevaluated
        obtain ⟨rfl, rfl⟩ := Failure.mismatch.inj hreport
        exact hexpected.display_ne hj differs

private def answer : Json := .array [.string "NaN", .string "a"]

private def answering : Engine World := ⟨"answering", fun _ w => (.ok answer, w)⟩

private def answeringChecker : Checker where
  config := { Config.default with sentinel := "end", prelude := [] }
  resolver := ⟨⟨Pattern.never, []⟩, .primary⟩
  invoker := {
    translator := ⟨"answering", fun _ w => (.ok (some (.array [.array [.string "1 + 2"]])), w)⟩
    importGuard := .default
    directory := "/" }
  patcher := ⟨[], .default⟩

private def answeringSession : Session where
  world := ⟨⟨[(["a"], .file (Utf8.encode "call\n1 + 2\nend: 1 + 2") false)]⟩, [], [], [], []⟩
  engine := some (.ofFactory fun w => (.ok answering, w))

private def nanList : Value := .sequence [Value.ofDouble .nan, .string "a"]

private theorem answering_fails : ∃ s', answeringChecker.FailsFirst .plain nanList ⟨"/a", 1, none⟩
    answeringSession .compareValues (.mismatch "[NaN, \"a\"]" "[\"NaN\", \"a\"]") s' := by
  have hlocated : answeringChecker.Located ⟨"/a", 1, none⟩ answeringSession
      ⟨⟨"/a", 2, 0, ["1 + 2".toList]⟩, some "1 + 2".toList⟩ :=
    located_of_entry (by decide : Path.IsName "a") rfl rfl rfl
  have htranslated := translated_of_answer (r := .plain) hlocated
    (Invoker.translate_of_answers (Disk.locate_root _ _) rfl (fun _ _ => rfl) rfl _)
  have hevaluated : answeringChecker.Evaluated .plain ⟨"/a", 1, none⟩ answeringSession _
      (Value.ofJson answer) _ := ⟨_, ⟨htranslated, compareTail_eq_ok_iff.mp rfl⟩, rfl⟩
  exact ⟨_, .compareValues hevaluated (by decide)⟩

private theorem answering_answers : Session.AnswersJson answeringSession.engine := by
  intro cache hcache e he artifact w j hj
  obtain rfl := Option.some.inj hcache
  obtain rfl : answering = e := by
    rcases he with he | ⟨w', he⟩
    · cases he
    · exact Except.ok.inj he
  obtain rfl : answer = j := Except.ok.inj hj
  exact ⟨trivial, trivial, trivial⟩

theorem mismatch_sides_ne_nan :
    (answeringChecker.check .plain nanList ⟨"/a", 1, none⟩ answeringSession).1 =
      .error (.mismatch "[NaN, \"a\"]" "[\"NaN\", \"a\"]") ∧
    "[NaN, \"a\"]".toList ≠ "[\"NaN\", \"a\"]".toList := by
  obtain ⟨s', hfails⟩ := answering_fails
  have hcheck := congrArg Prod.fst (check_of_failsFirst hfails)
  have hexpected : nanList.Converted := by
    refine .sequence fun v hv => ?_
    rcases List.mem_cons.mp hv with rfl | hv
    · exact .double .nan
    · rw [List.mem_singleton.mp hv]
      exact .string "a"
  obtain ⟨-, hsides⟩ :=
    mismatch_sides_ne answeringChecker .plain ⟨"/a", 1, none⟩ hexpected answering_answers
  exact ⟨hcheck, hsides _ _ hcheck⟩

end Checker

end Crosscheck
