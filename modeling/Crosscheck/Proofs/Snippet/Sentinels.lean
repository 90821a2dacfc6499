import Crosscheck.CommandLine.Invocation
import Crosscheck.Proofs.Config.Overlay
import Crosscheck.Proofs.Snippet.Location
import Crosscheck.Proofs.Text.Trimming
/-!
# Which sentinels work

A configuration can have any sentinel that is not blank, and on the command line any text at all can be
given. A sentinel does its work if every line that consists of just this text can end a snippet and no
blank line does. That takes more than is asked for: lines are trimmed before they are compared, the
sentinel is not.
-/

namespace Crosscheck

/-! ## Where a sentinel comes from -/

/-- The sentinel of a configuration that is accepted. -/
def Config.HasSentinel (sentinel : Text) : Prop :=
  ∃ written config, read written = .ok config ∧ config.sentinel = sentinel

/-- The sentinel of an inline command that is understood. -/
def CommandLine.HasSentinel (sentinel : Text) : Prop :=
  ∃ arguments i file line range request evaluated, read arguments = .run i ∧
    i.command = .inline file line (some sentinel) range request evaluated

namespace Config

variable {sentinel : Text}

theorem not_blank_of_read {written : Text} {config : Config} (h : read written = .ok config) :
    ¬ Text.isBlankText config.sentinel := by
  rw [read] at h
  split at h
  · cases h
  · split at h
    · cases h
    · next hblank =>
        obtain rfl := Except.ok.inj h
        exact hblank

/-- Every text that is not blank is the sentinel of the configuration that gives nothing else. -/
theorem hasSentinel_of_not_blank (h : ¬ Text.isBlankText sentinel) : HasSentinel sentinel := by
  let config : Config := { default with sentinel := sentinel }
  let fields : List (Option Text × Json.Form) := [(some Key.sentinel.text, .string (some sentinel))]
  have hlists : config.Lists [.sentinel] [] fields :=
    ⟨by simp, by simp, fun _ => .string (some sentinel), by simp [Gives, config], [], .refl _, by simp⟩
  obtain ⟨written, hwritten⟩ : Json.Form.Spelled (.object fields) :=
    Json.Form.Spelled.object (by simpa [fields] using Json.Form.Spelled.string sentinel)
  refine ⟨written, config.overlay [.sentinel] [], ?_, by simp [overlay, config]⟩
  rw [read, hwritten, Option.bind_some, hlists.ofForm?]
  simpa [overlay, config] using h

theorem hasSentinel_iff : HasSentinel sentinel ↔ ¬ Text.isBlankText sentinel := by
  refine ⟨?_, hasSentinel_of_not_blank⟩
  rintro ⟨written, config, hread, rfl⟩
  exact not_blank_of_read hread

end Config

/-- Any text can be attached to the option. -/
theorem CommandLine.hasSentinel (sentinel : Text) : HasSentinel sentinel :=
  ⟨["inline", "a.swift", "1", "--sentinel=" ++ sentinel], _, _, _, _, _, _, rfl, rfl⟩

namespace Snippet

variable {code path sentinel : Text} {startLine i : Nat} {preamble : Option (Nat × Nat)} {s : Snippet}

/-! ## The line that ends a snippet -/

/-- The index of the line that ends a snippet, given the number of the line that it follows. -/
def boundary (s : Snippet) (startLine : Nat) : Nat := startLine + s.fragment.body.length

theorem boundary_eq_of_cutAt {lines : List Text} (hstart : startLine ≤ i)
    (h : CutAt lines path startLine sentinel preamble i s) : s.boundary startLine = i := by
  obtain ⟨leading, body, clean, -, -, hbody, -, -, -, hlength, hclean, hlines, -⟩ := h
  have hcount := Checked.length_of_slice? hbody
  have hall : s.fragment.lines.length = leading.length + body.length := by
    rw [hlines.length_eq, ← hclean.length_eq, List.length_append]
  rw [boundary, Fragment.body, List.length_drop, hall, hlength]
  omega

/-- A snippet ends at a line that closes it, and none before it does. -/
theorem endsAt_boundary (h : locate code path startLine sentinel preamble = .ok s) :
    EndsAt (Text.splitLines code) startLine sentinel (s.boundary startLine) ∧
      ∀ j, EndsAt (Text.splitLines code) startLine sentinel j → s.boundary startLine ≤ j := by
  obtain ⟨i, hi, hfirst, hcut⟩ := cutAt_of_locate h
  rw [boundary_eq_of_cutAt hi.1 hcut]
  exact ⟨hi, fun j hj => Nat.not_lt.mp fun hlt => hfirst j hlt hj⟩

/-! ## Which sentinels work -/

/-- In every text, a line that is just the sentinel ends the snippet unless an earlier line does, and no blank
line ends one. -/
structure Works (sentinel : Text) : Prop where
  recognized : ∀ (code path : Text) (startLine : Nat) (preamble : Option (Nat × Nat)) (i : Nat),
    startLine ≤ i → (Text.splitLines code)[i]? = some sentinel →
      ∃ s, locate code path startLine sentinel preamble = .ok s ∧ s.boundary startLine ≤ i
  not_blank : ∀ (code path : Text) (startLine : Nat) (preamble : Option (Nat × Nat)) (s : Snippet),
    locate code path startLine sentinel preamble = .ok s →
      ∀ line, (Text.splitLines code)[s.boundary startLine]? = some line → ¬ Text.isBlankText line

theorem Works.trimmed (h : Works sentinel) : '\n' ∈ sentinel ∨ Text.trim sentinel = sentinel := by
  by_contra hneither
  obtain ⟨hnewline, htrim⟩ := not_or.mp hneither
  have hlines := Text.splitLines_of_not_mem hnewline
  obtain ⟨s, hlocate, -⟩ := h.recognized sentinel [] 0 none 0 (Nat.le_refl 0) (by rw [hlines]; rfl)
  obtain ⟨-, line, hline, hcloses⟩ := (endsAt_boundary hlocate).1
  rw [hlines] at hline
  obtain rfl : line = sentinel := by simpa using List.mem_of_getElem? hline
  exact htrim (Text.prefix_trim_iff.mp hcloses)

/-- The empty sentinel closes a line that is blank. -/
theorem Works.ne_nil (h : Works sentinel) : sentinel ≠ [] := by
  rintro rfl
  obtain ⟨s, hlocate, hzero⟩ := h.recognized [] [] 0 none 0 (Nat.le_refl 0) rfl
  have hline : (Text.splitLines [])[s.boundary 0]? = some [] := by rw [Nat.le_zero.mp hzero]; rfl
  exact h.not_blank [] [] 0 none s hlocate [] hline rfl

theorem works_of_trimmed (hne : sentinel ≠ [])
    (htrim : '\n' ∈ sentinel ∨ Text.trim sentinel = sentinel) : Works sentinel where
  recognized := by
    intro code path startLine preamble i hstart hline
    have hnewline := Text.not_mem_of_mem_splitLines (List.mem_of_getElem? hline)
    have hcloses := Text.prefix_trim_iff.mpr (htrim.resolve_left hnewline)
    have hi : EndsAt (Text.splitLines code) startLine sentinel i := ⟨hstart, sentinel, hline, hcloses⟩
    obtain ⟨-, s, -, -, hlocate, -⟩ := exists_locate path preamble hi
    exact ⟨s, hlocate, (endsAt_boundary hlocate).2 i hi⟩
  not_blank := by
    intro code path startLine preamble s hlocate line hline hblank
    obtain ⟨-, closing, hclosing, hcloses⟩ := (endsAt_boundary hlocate).1
    obtain rfl := Option.some.inj (hline.symm.trans hclosing)
    rw [Text.trim_eq_nil_iff.mpr hblank] at hcloses
    exact hne (List.prefix_nil.mp hcloses)

/-- A configuration is accepted with just the sentinels that are not blank, a command with any. Of them
work just those that are not empty and begin and end with no white space, or could be no line at all. -/
theorem sentinel_works_iff (sentinel : Text) :
    (Config.HasSentinel sentinel ↔ ¬ Text.isBlankText sentinel) ∧
    CommandLine.HasSentinel sentinel ∧
    (Works sentinel ↔ sentinel ≠ [] ∧ ('\n' ∈ sentinel ∨ Text.trim sentinel = sentinel)) :=
  ⟨Config.hasSentinel_iff, CommandLine.hasSentinel sentinel,
    fun h => ⟨h.ne_nil, h.trimmed⟩, fun h => works_of_trimmed h.1 h.2⟩

/-- A configuration with a blank at the end of its sentinel is accepted, but no line that consists of the
sentinel ends a snippet. -/
theorem padded_sentinel_not_found : Config.HasSentinel "END " ∧
    (Text.splitLines "call\nx\nEND ")[2]? = some "END ".toList ∧
    locate "call\nx\nEND " "a.swift" 1 "END " none = .error (.snippetNotFound "a.swift" 1 "END ") :=
  ⟨Config.hasSentinel_iff.mpr (by decide), by decide, by decide⟩

end Snippet

end Crosscheck
