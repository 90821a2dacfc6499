import Crosscheck.Proofs.Snippet.Location
import Crosscheck.Proofs.Text.Trimming
/-!
# The last line of a snippet

The last of the lines that a snippet and its preamble are made of loses its markers, and then a return at its
front. Only one return is taken off: a line that begins with two of them still begins with one.
-/

namespace Crosscheck

namespace Text

variable {part s t : Text}

/-- What is left of a text is what replacing by nothing leaves. -/
theorem Strips.eq_replaceFrom (hpart : part ≠ []) (h : Strips part s t) : t = replaceFrom part [] 0 s := by
  induction h with
  | clear h => exact (replaceFrom_of_free h).symm
  | cut first _ ih => rw [replaceFrom_first hpart first, List.nil_append, ← ih]

end Text

namespace Checked

theorem mem_of_slice? {α : Type} {xs ys : List α} {start stop : Nat} (h : slice? xs start stop = some ys) :
    ∀ y ∈ ys, y ∈ xs := by
  rw [slice?] at h
  split at h
  · obtain rfl := Option.some.inj h
    exact fun y hy => List.mem_of_mem_drop (List.mem_of_mem_take hy)
  · cases h

end Checked

namespace Snippet

open Checked (slice?)

variable {lines clean before leading leading' : List Text} {code path sentinel line bare last : Text}
  {startLine i j : Nat} {preamble : Option (Nat × Nat)} {s : Snippet}

/-- The last of the lines of a text that a snippet and its preamble are made of is `line`; `bare` is left of it
without markers, and `last` if a return in front is taken off, too. -/
structure LastLine (code : Text) (startLine : Nat) (sentinel : Text) (preamble : Option (Nat × Nat))
    (line bare last : Text) : Prop where
  taken : ∃ i leading body, EndsAt (Text.splitLines code) startLine sentinel i ∧
    (∀ j < i, ¬ EndsAt (Text.splitLines code) startLine sentinel j) ∧
    IsPreamble (Text.splitLines code) preamble leading ∧
    slice? (Text.splitLines code) startLine i = some body ∧ (leading ++ body).getLast? = some line
  unmarked : Text.Strips noReturnMarker line bare
  unreturned : Text.trim bare = returnLead ++ last ∨ ¬ returnLead <+: Text.trim bare ∧ last = bare

/-! ## Each part is determined -/

theorem EndsAt.first_unique (hi : EndsAt lines startLine sentinel i)
    (hfirst : ∀ k < i, ¬ EndsAt lines startLine sentinel k) (hj : EndsAt lines startLine sentinel j)
    (hfirst' : ∀ k < j, ¬ EndsAt lines startLine sentinel k) : i = j := by
  rcases Nat.lt_trichotomy i j with hlt | heq | hlt
  · exact absurd hi (hfirst' i hlt)
  · exact heq
  · exact absurd hj (hfirst j hlt)

theorem IsPreamble.unique (h : IsPreamble lines preamble leading) (h' : IsPreamble lines preamble leading') :
    leading = leading' := by
  cases preamble with
  | none =>
      have hnone : leading = [] := h
      have hnone' : leading' = [] := h'
      rw [hnone, hnone']
  | some range => exact Option.some.inj (Eq.trans (Eq.symm h) h')

theorem IsPreamble.mem (h : IsPreamble lines preamble leading) : ∀ line ∈ leading, line ∈ lines := by
  cases preamble with
  | none =>
      obtain rfl : leading = [] := h
      exact fun line hline => absurd hline List.not_mem_nil
  | some range => exact Checked.mem_of_slice? h

/-- Taking markers out of lines takes them out of each by itself. -/
theorem eq_map_of_strips (h : List.Forall₂ (Text.Strips noReturnMarker) lines clean) :
    clean = lines.map (Text.replaceFrom noReturnMarker [] 0) := by
  symm
  rw [← List.forall₂_eq_eq_eq, List.forall₂_map_left_iff]
  exact h.imp fun line bare hbare => (hbare.eq_replaceFrom (by decide)).symm

/-- The last line alone decides about its return. -/
theorem Unreturned.exists_of_append (h : Unreturned (before ++ [bare]) lines) : ∃ last,
    lines = before ++ [last] ∧
      (Text.trim bare = returnLead ++ last ∨ ¬ returnLead <+: Text.trim bare ∧ last = bare) := by
  generalize hclean : before ++ [bare] = clean at h
  cases h with
  | nothing => simp at hclean
  | stripped hreturn =>
      obtain ⟨rfl, hsame⟩ := List.append_inj' hclean rfl
      obtain rfl := List.singleton_inj.mp hsame
      exact ⟨_, rfl, .inl hreturn⟩
  | kept hnone =>
      obtain ⟨rfl, hsame⟩ := List.append_inj' hclean rfl
      obtain rfl := List.singleton_inj.mp hsame
      exact ⟨_, rfl, .inr ⟨hnone, rfl⟩⟩

namespace LastLine

variable (h : LastLine code startLine sentinel preamble line bare last)

include h

/-- It is the last line of the fragment that is located. -/
theorem lines_of_locate (hlocate : locate code path startLine sentinel preamble = .ok s) :
    ∃ before, s.fragment.lines = before ++ [last] := by
  obtain ⟨i, leading, body, hi, hfirst, hpreamble, hbody, hline⟩ := h.taken
  obtain ⟨j, hj, hfirst', leading', body', clean, closing, hpreamble', hbody', -, -, -, -, hstrips,
    hunreturned, -⟩ := cutAt_of_locate hlocate
  obtain rfl := hi.first_unique hfirst hj hfirst'
  obtain rfl := hpreamble.unique hpreamble'
  obtain rfl := Option.some.inj (hbody.symm.trans hbody')
  obtain ⟨before, hbefore⟩ := List.getLast?_eq_some_iff.mp hline
  rw [hbefore] at hstrips
  rw [eq_map_of_strips hstrips, List.map_append, List.map_singleton,
    ← h.unmarked.eq_replaceFrom (by decide)] at hunreturned
  obtain ⟨last', hlines, hlast⟩ := hunreturned.exists_of_append
  have hsame : last' = last := by
    rcases h.unreturned with hreturn | ⟨hnone, rfl⟩
    · rcases hlast with hreturn' | ⟨hnone, -⟩
      · exact List.append_cancel_left (hreturn'.symm.trans hreturn)
      · exact absurd ⟨last, hreturn.symm⟩ hnone
    · rcases hlast with hreturn' | ⟨-, hkept⟩
      · exact absurd ⟨last', hreturn'.symm⟩ hnone
      · exact hkept
  exact ⟨_, hsame ▸ hlines⟩

/-- It stands on one line. -/
theorem single : '\n' ∉ last := by
  obtain ⟨i, leading, body, -, -, hpreamble, hbody, hline⟩ := h.taken
  have hmem : line ∈ Text.splitLines code := by
    rcases List.mem_append.mp (List.mem_of_getLast? hline) with hleading | hbetween
    · exact hpreamble.mem line hleading
    · exact Checked.mem_of_slice? hbody line hbetween
  have hbare : '\n' ∉ bare := fun hnewline =>
    Text.not_mem_of_mem_splitLines hmem (h.unmarked.sublist.subset hnewline)
  rcases h.unreturned with hreturn | ⟨-, rfl⟩
  · intro hnewline
    refine hbare ((Text.trim_sublist bare).subset ?_)
    rw [hreturn]
    exact List.mem_append_right _ hnewline
  · exact hbare

/-- It begins with a return only if there were two of them. -/
theorem returns_iff : returnLead <+: Text.trim last ↔
    ∃ value, Text.trim bare = returnLead ++ value ∧ returnLead <+: Text.trim value := by
  rcases h.unreturned with hreturn | ⟨hnone, rfl⟩
  · constructor
    · intro htwice
      exact ⟨last, hreturn, htwice⟩
    · intro ⟨value, hvalue, htwice⟩
      rw [hreturn] at hvalue
      rwa [List.append_cancel_left hvalue]
  · refine iff_of_false hnone ?_
    intro ⟨value, hvalue, _⟩
    exact hnone ⟨value, hvalue.symm⟩

end LastLine

end Snippet

end Crosscheck
