import Crosscheck.Translator.Basic
/-!
# What the answer of a translator comes to

A list that starts with a record gives the text of the record, and each other form of an answer has a failure
of its own. A record without its key, a list of just the text, counts as a record as well, though.
-/

namespace Crosscheck.Translator

variable {first : Json} {rest : List Json} {response : Option Json} {s : Text}

/-- A record of a translated text: an object with the text under the key of records. -/
def IsRecord (j : Json) (s : Text) : Prop :=
  ∃ fields, j = .object fields ∧ Json.field? recordKey fields = some (.string s)

/-- What an answer comes to: the text of the record that it starts with, or else the failure that tells how
far it is from a list of records. -/
inductive Narrowed : Option Json → Except Failure Text → Prop
  | missing : Narrowed none (.error .noResult)
  | unlisted {answer : Json} (h : ∀ items, answer ≠ .array items) :
      Narrowed (some answer) (.error .noInitialResult)
  | unrecorded {items : List Json} (h : ∀ first ∈ items.head?, ∀ s, ¬ IsRecord first s) :
      Narrowed (some (.array items)) (.error .noInitialRecord)
  | record {first : Json} {rest : List Json} {s : Text} (h : IsRecord first s) :
      Narrowed (some (.array (first :: rest))) (.ok s)

/-- A list of records of which the first is written as a list of just its text. -/
def Keyless (response : Option Json) : Prop :=
  ∃ s rest, response = some (.array (.array [.string s] :: rest))

theorem recordText?_eq_some_iff : recordText? first = some s ↔ IsRecord first s ∨ first = .array [.string s] := by
  constructor
  · intro h
    unfold recordText? at h
    split at h
    · next fields =>
      split at h
      · next hfield =>
        cases h
        exact .inl ⟨fields, rfl, hfield⟩
      · cases h
    · cases h
      exact .inr rfl
    · cases h
  · rintro (⟨fields, rfl, hfield⟩ | rfl)
    · simp [recordText?, hfield]
    · rfl

theorem not_isRecord_array (items : List Json) (s : Text) : ¬ IsRecord (.array items) s := by
  rintro ⟨_, h, -⟩
  cases h

/-- A record has one text. -/
theorem IsRecord.text_unique {t : Text} (hs : IsRecord first s) (ht : IsRecord first t) : s = t := by
  have hread := recordText?_eq_some_iff.mpr (.inl hs)
  rw [recordText?_eq_some_iff.mpr (.inl ht)] at hread
  exact (Option.some.inj hread).symm

/-- An answer comes to one result. -/
theorem Narrowed.unique {r r' : Except Failure Text} (h : Narrowed response r) (h' : Narrowed response r') :
    r = r' := by
  cases h with
  | missing => cases h'; rfl
  | unlisted hlist =>
    cases h' with
    | unlisted => rfl
    | unrecorded => exact absurd rfl (hlist _)
    | record => exact absurd rfl (hlist _)
  | unrecorded hfirst =>
    cases h' with
    | unlisted hlist => exact absurd rfl (hlist _)
    | unrecorded => rfl
    | record hrecord => exact absurd hrecord (hfirst _ rfl _)
  | record hrecord =>
    cases h' with
    | unlisted hlist => exact absurd rfl (hlist _)
    | unrecorded hfirst => exact absurd hrecord (hfirst _ rfl _)
    | record hrecord' => rw [hrecord.text_unique hrecord']

/-- A list of just a text is no record. -/
theorem narrowed_keyless (s : Text) (rest : List Json) :
    Narrowed (some (.array (.array [.string s] :: rest))) (.error .noInitialRecord) := by
  refine .unrecorded ?_
  rintro _ ⟨⟩ t
  exact not_isRecord_array _ _

theorem unwrap_of_recordText? (h : recordText? first = some s) :
    unwrap (some (.array (first :: rest))) = .ok s := by
  simp [unwrap, h]

theorem unwrap_of_recordText?_none (h : recordText? first = none) :
    unwrap (some (.array (first :: rest))) = .error .noInitialRecord := by
  simp [unwrap, h]

theorem unwrap_of_not_array {answer : Json} (h : ∀ items, answer ≠ .array items) :
    unwrap (some answer) = .error .noInitialResult := by
  cases answer with
  | array items => exact absurd rfl (h items)
  | _ => rfl

/-- A list of records comes to what it should, unless the first of them goes without its key. -/
theorem unwrap_cons_narrowed_iff :
    Narrowed (some (.array (first :: rest))) (unwrap (some (.array (first :: rest)))) ↔
      ∀ s, first ≠ .array [.string s] := by
  cases hread : recordText? first with
  | none =>
    rw [unwrap_of_recordText?_none hread]
    have hnot (s : Text) : ¬ (IsRecord first s ∨ first = .array [.string s]) := by
      rw [← recordText?_eq_some_iff, hread]
      exact nofun
    refine iff_of_true (.unrecorded ?_) fun s hs => hnot s (.inr hs)
    rintro _ ⟨⟩ s hs
    exact hnot s (.inl hs)
  | some s =>
    rw [unwrap_of_recordText? hread]
    rcases recordText?_eq_some_iff.mp hread with hrecord | rfl
    · refine iff_of_true (.record hrecord) ?_
      rintro t rfl
      exact not_isRecord_array _ _ hrecord
    · refine iff_of_false (fun h => ?_) fun h => h s rfl
      cases h.unique (narrowed_keyless s rest)

/-- Every answer comes to what it should, unless it is a list whose first record goes without its key; such an
answer gives the text all the same. -/
theorem unwrap_narrowed_iff (response : Option Json) :
    (Narrowed response (unwrap response) ↔ ¬ Keyless response) ∧
      ∀ s rest, unwrap (some (.array (.array [.string s] :: rest))) = .ok s := by
  refine ⟨?_, fun s rest => rfl⟩
  match response with
  | none => exact iff_of_true .missing (by rintro ⟨_, _, ⟨⟩⟩)
  | some answer =>
    by_cases hlist : ∃ items, answer = .array items
    · obtain ⟨items, rfl⟩ := hlist
      cases items with
      | nil => exact iff_of_true (.unrecorded nofun) (by rintro ⟨_, _, ⟨⟩⟩)
      | cons first rest => simp [unwrap_cons_narrowed_iff, Keyless]
    · have hother := not_exists.mp hlist
      rw [unwrap_of_not_array hother]
      refine iff_of_true (.unlisted hother) ?_
      rintro ⟨s, rest, hanswer⟩
      exact hother _ (Option.some.inj hanswer)

theorem keyless_record_unwrapped :
    unwrap (some (.array [.array [.string "x"]])) = .ok "x" ∧
      ∀ r, Narrowed (some (.array [.array [.string "x"]])) r ↔ r = .error .noInitialRecord :=
  ⟨rfl, fun _ => ⟨fun h => h.unique (narrowed_keyless _ _), fun h => h ▸ narrowed_keyless _ _⟩⟩

end Crosscheck.Translator
