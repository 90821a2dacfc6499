import Crosscheck.Proofs.Json.Structure
import Crosscheck.Proofs.Text.Trimming
import Crosscheck.Proofs.Text.Utf8
import Crosscheck.Translator.Program
/-!
# What the run of a translator counts as

The answer of a program is what it printed, if it ended well and printed JSON. Everything else counts as a
failure, apart from a run that ends well and prints nothing. The output is decoded leniently, though, so bytes
that encode no text count as an answer when they are JSON with replacement characters put in.
-/

namespace Crosscheck.Translator.Program

open Utf8 (encode decodeLenient decodeLenient_encode mem_decodeLenient)

variable {status : ExitStatus} {output : Bytes}

/-! ## The verdict -/

/-- A run that ends well gives the value of the text that it printed, or nothing for a blank one. Every other
run fails. -/
inductive Faithful (status : ExitStatus) (output : Bytes) : Except Failure (Option Json) → Prop
  | answered {s : Text} {answer : Json} (hstatus : status.success) (houtput : output = encode s)
      (hanswer : Json.read? (Text.trim s) = some answer) : Faithful status output (.ok (some answer))
  | silent {s : Text} (hstatus : status.success) (houtput : output = encode s)
      (hblank : Text.isBlankText s) : Faithful status output (.ok none)
  | failed {message : Text} (h : ¬ (status.success ∧ ∃ s, output = encode s ∧
      (Text.isBlankText s ∨ ∃ answer, Json.read? (Text.trim s) = some answer))) :
      Faithful status output (.error (.translator message))

/-- The run ends well, and its output encodes no text but is JSON once the rubbish in it is replaced. -/
def Garbled (status : ExitStatus) (output : Bytes) : Prop :=
  status.success ∧ (∀ s, output ≠ encode s) ∧
    ∃ answer, Json.read? (Text.trim (decodeLenient output)) = some answer

/-! ## Cases of a run -/

theorem interpret_of_not_success (output complaints : Bytes) (h : ¬ status.success) :
    ∃ message, interpret status output complaints = .error (.translator message) := by
  rw [interpret, if_neg h]
  exact ⟨_, rfl⟩

theorem interpret_of_blank (complaints : Bytes) (h : status.success)
    (hblank : Text.isBlankText (decodeLenient output)) :
    interpret status output complaints = .ok none := by
  rw [interpret, if_pos h, Text.trim_eq_nil_iff.mpr hblank]
  rfl

theorem interpret_of_json {answer : Json} (complaints : Bytes) (h : status.success)
    (hanswer : Json.read? (Text.trim (decodeLenient output)) = some answer) :
    interpret status output complaints = .ok (some answer) := by
  have hnonempty : Text.trim (decodeLenient output) ≠ [] := by
    intro hnil
    rw [hnil] at hanswer
    cases hanswer
  simp [interpret, h, hnonempty, hanswer]

theorem interpret_of_not_json (complaints : Bytes) (h : status.success)
    (hblank : ¬ Text.isBlankText (decodeLenient output))
    (hanswer : ∀ answer, Json.read? (Text.trim (decodeLenient output)) ≠ some answer) :
    ∃ message, interpret status output complaints = .error (.translator message) := by
  have hnonempty := List.isEmpty_eq_false_iff.mpr (mt Text.trim_eq_nil_iff.mp hblank)
  have hnone := Option.eq_none_iff_forall_ne_some.mpr hanswer
  rw [interpret, if_pos h]
  simp only [hnonempty, hnone, Bool.false_eq_true, if_false]
  exact ⟨_, rfl⟩

/-- A replacement character is not blank. -/
theorem not_blank_of_not_text (h : ∀ s, output ≠ encode s) : ¬ Text.isBlankText (decodeLenient output) := by
  intro hblank
  have hmem := Text.mem_trim (by decide) (mem_decodeLenient h)
  rw [Text.trim_eq_nil_iff.mpr hblank] at hmem
  cases hmem

/-! ## Whether the verdict is faithful -/

theorem faithful_of_text (s : Text) (complaints : Bytes) :
    Faithful status (encode s) (interpret status (encode s) complaints) := by
  by_cases hstatus : status.success
  · by_cases hblank : Text.isBlankText s
    · rw [interpret_of_blank complaints hstatus (by rwa [decodeLenient_encode])]
      exact .silent hstatus rfl hblank
    · by_cases hanswer : ∃ answer, Json.read? (Text.trim s) = some answer
      · obtain ⟨answer, hread⟩ := hanswer
        rw [interpret_of_json complaints hstatus (by rwa [decodeLenient_encode])]
        exact .answered hstatus rfl hread
      · obtain ⟨message, hmessage⟩ := interpret_of_not_json complaints hstatus
          (by rwa [decodeLenient_encode]) (by rw [decodeLenient_encode]; exact not_exists.mp hanswer)
        rw [hmessage]
        apply Faithful.failed
        rintro ⟨-, t, hsame, hread⟩
        obtain rfl : s = t := by simpa [decodeLenient_encode] using congrArg decodeLenient hsame
        exact hread.elim hblank hanswer
  · obtain ⟨message, hmessage⟩ := interpret_of_not_success (encode s) complaints hstatus
    rw [hmessage]
    exact .failed fun h => hstatus h.1

/-- What encodes no text is taken for a failure just if it is no JSON after decoding either. -/
theorem faithful_iff_of_not_text (complaints : Bytes) (h : ∀ s, output ≠ encode s) :
    Faithful status output (interpret status output complaints) ↔ ¬ Garbled status output := by
  have hfailed (message : Text) : Faithful status output (.error (.translator message)) :=
    .failed fun ⟨_, s, hs, _⟩ => h s hs
  by_cases hstatus : status.success
  · by_cases hanswer : ∃ answer, Json.read? (Text.trim (decodeLenient output)) = some answer
    · obtain ⟨answer, hread⟩ := hanswer
      rw [interpret_of_json complaints hstatus hread]
      refine iff_of_false ?_ (not_not.mpr ⟨hstatus, h, answer, hread⟩)
      rintro (⟨-, houtput, -⟩ : Faithful _ _ (.ok (some _)))
      exact h _ houtput
    · obtain ⟨message, hmessage⟩ := interpret_of_not_json complaints hstatus
        (not_blank_of_not_text h) (not_exists.mp hanswer)
      rw [hmessage]
      exact iff_of_true (hfailed message) fun hgarbled => hanswer hgarbled.2.2
  · obtain ⟨message, hmessage⟩ := interpret_of_not_success output complaints hstatus
    rw [hmessage]
    exact iff_of_true (hfailed message) fun hgarbled => hstatus hgarbled.1

theorem interpret_faithful_iff (status : ExitStatus) (output complaints : Bytes) :
    Faithful status output (interpret status output complaints) ↔ ¬ Garbled status output := by
  by_cases htext : ∃ s, output = encode s
  · obtain ⟨s, rfl⟩ := htext
    exact iff_of_true (faithful_of_text s complaints) fun hgarbled => hgarbled.2.1 s rfl
  · exact faithful_iff_of_not_text complaints (not_exists.mp htext)

/-- Whatever a run leaves behind, the answer of the translator is the one that its output gives, unless
that was garbled. A program that cannot be run is a failure of the translator. -/
theorem compile_faithful_iff (p : Program) (arguments : List Text) (w : World) :
    (∀ o, Shell.execute (w.launch []) p.path (p.arguments ++ arguments) = .ok o →
      (Faithful o.status o.output (p.translator.compile arguments w).1 ↔ ¬ Garbled o.status o.output)) ∧
    (∀ fault, Shell.execute (w.launch []) p.path (p.arguments ++ arguments) = .error fault →
      ∃ message, (p.translator.compile arguments w).1 = .error (.translator message)) ∧
    ∀ status output complaints,
      Faithful status output (interpret status output complaints) ↔ ¬ Garbled status output := by
  refine ⟨fun o ho => ?_, fun fault hfault => ?_, interpret_faithful_iff⟩
  · rw [translator]
    simp only [ho]
    exact interpret_faithful_iff _ _ _
  · rw [translator]
    simp only [hfault]
    exact ⟨_, rfl⟩

/-- The bytes of a JSON text, with one in a string that encodes nothing. -/
private def spoiledOutput : Bytes :=
  encode "[\x7b\"translatedText\": \"a" ++ [0xFF] ++ encode "\"\x7d]"

theorem spoiled_output_answered : Garbled (.exited 0) spoiledOutput ∧
    interpret (.exited 0) spoiledOutput [] =
      .ok (some (.array [.object [("translatedText".toList, .string "a\uFFFD")]])) := by
  have hform : Json.Form.read? (Text.trim (decodeLenient spoiledOutput)) = some
      (.array [.object [(some "translatedText".toList, .string (some "a\uFFFD".toList))]]) := by
    decide +kernel
  have hread : Json.read? (Text.trim (decodeLenient spoiledOutput)) =
      some (.array [.object [("translatedText".toList, .string "a\uFFFD")]]) := by
    rw [Json.read?, hform]
    rfl
  refine ⟨⟨rfl, fun s hs => ?_, _, hread⟩, interpret_of_json [] rfl hread⟩
  have hnone : Utf8.decode? spoiledOutput = none := by decide
  rw [Utf8.decode?_eq_some_iff.mpr hs] at hnone
  cases hnone

end Crosscheck.Translator.Program
