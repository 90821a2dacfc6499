import Crosscheck.Proofs.Json.RoundTrip
/-!
# Texts that spell a form

Reading a form does not depend on what comes after it, as long as that does not go on its last number. So
texts of the parts are put together to a text of the whole.
-/

namespace Crosscheck.Json

variable {s t rest after : Text} {n : Nat}

/-! ## What stands behind a form -/

theorem readUnits_append (rest : Text) {units : List Nat} (h : readUnits s = some (units, after)) :
    readUnits (s ++ rest) = some (units, after ++ rest) := by
  fun_induction readUnits s generalizing units with
  | case1 => cases h
  | case2 s => cases h; rfl
  | case3 a b c d s n units' after' hunits hn ih =>
      cases h
      simp [readUnits, hn, ih hunits]
  | case4 => cases h
  | case5 e s hu n units' after' hunits he ih =>
      cases h
      rw [List.cons_append, List.cons_append, readUnits_short he, ih hunits]
      rfl
  | case6 => cases h
  | case7 => cases h
  | case8 c s hquote hu hslash hc units' after' hunits ih =>
      cases h
      have hc' : c ≠ '\\' := by
        rintro rfl
        cases s with
        | nil => cases hunits
        | cons e s => exact hslash e s rfl rfl
      rw [List.cons_append, readUnits_plain hquote hc' hc, ih hunits]
      rfl
  | case9 => cases h

theorem readString_append (rest : Text) {content : Option Text} (h : readString s = some (content, after)) :
    readString (s ++ rest) = some (content, after ++ rest) := by
  obtain ⟨⟨units, after'⟩, hunits, hfound⟩ := Option.map_eq_some_iff.mp h
  cases hfound
  simp [readString, readUnits_append rest hunits]

theorem after?_append {lead : Text} (rest : Text) (h : Text.after? lead s = some after) :
    Text.after? lead (s ++ rest) = some (after ++ rest) := by
  rw [Text.after?, List.isPrefixOf?_eq_some_iff_append_eq] at h ⊢
  rw [← h, List.append_assoc]

/-- What is read does not begin where the space in front of it does not end. -/
theorem skipSpace_append_of_cons {c : Char} (rest : Text) (h : skipSpace s = c :: t) :
    skipSpace (s ++ rest) = c :: (t ++ rest) := by
  rw [skipSpace_append (by simp [h]), h, List.cons_append]

mutual

theorem readForm_append (hrest : Stops rest) : ∀ (fuel : Nat) {fuel' : Nat} {s after : Text} {f : Form},
    fuel ≤ fuel' → readForm fuel s = some (f, after) →
      readForm fuel' (s ++ rest) = some (f, after ++ rest)
  | 0, _, _, _, _, _, h => by cases h
  | fuel + 1, fuel', s, after, f, hfuel, h => by
      obtain ⟨k, rfl⟩ : ∃ k, fuel' = k + 1 := ⟨fuel' - 1, by omega⟩
      have hk : fuel ≤ k := by omega
      rw [readForm] at h ⊢
      cases hs : skipSpace s with
      | nil => simp [hs] at h
      | cons c t =>
        rw [skipSpace_append_of_cons rest hs]
        simp only [hs] at h ⊢
        split at h
        · next hc =>
          obtain ⟨⟨content, after'⟩, hstring, hfound⟩ := Option.map_eq_some_iff.mp h
          cases hfound
          simp [hc, readString_append rest hstring]
        split at h
        · next hc =>
          split at h
          · next u hu =>
            cases h
            simp [hc, skipSpace_append_of_cons rest hu]
          · obtain ⟨⟨items, after'⟩, hitems, hfound⟩ := Option.map_eq_some_iff.mp h
            cases hfound
            have hitems' := readItems_append hrest fuel hk hitems
            have hhead := ne_bracket_of_readItems hitems'
            simp [hc, hitems']
        split at h
        · next hc =>
          split at h
          · next u hu =>
            cases h
            simp [hc, skipSpace_append_of_cons rest hu]
          · obtain ⟨⟨fields, after'⟩, hfields, hfound⟩ := Option.map_eq_some_iff.mp h
            cases hfound
            have hfields' := readFields_append hrest fuel hk hfields
            have hhead := ne_brace_of_readFields hfields'
            simp [hc, hfields']
        split at h
        · next hc =>
          obtain ⟨after', hword, hfound⟩ := Option.map_eq_some_iff.mp h
          cases hfound
          simpa [hc] using after?_append rest hword
        split at h
        · next hc =>
          obtain ⟨after', hword, hfound⟩ := Option.map_eq_some_iff.mp h
          cases hfound
          simpa [hc] using after?_append rest hword
        split at h
        · next hc =>
          obtain ⟨after', hword, hfound⟩ := Option.map_eq_some_iff.mp h
          cases hfound
          simpa [hc] using after?_append rest hword
        · obtain ⟨⟨n, after'⟩, hnumeral, hfound⟩ := Option.map_eq_some_iff.mp h
          cases hfound
          have hnumeral' := readNumeral_append hrest (c :: t)
          rw [hnumeral, List.cons_append] at hnumeral'
          simp [*, before]

theorem readItems_append (hrest : Stops rest) : ∀ (fuel : Nat) {fuel' : Nat} {s after : Text}
    {fs : List Form}, fuel ≤ fuel' → readItems fuel s = some (fs, after) →
      readItems fuel' (s ++ rest) = some (fs, after ++ rest)
  | 0, _, _, _, _, _, h => by cases h
  | fuel + 1, fuel', s, after, fs, hfuel, h => by
      obtain ⟨k, rfl⟩ : ∃ k, fuel' = k + 1 := ⟨fuel' - 1, by omega⟩
      have hk : fuel ≤ k := by omega
      rw [readItems] at h ⊢
      cases hitem : readForm fuel s with
      | none => simp [hitem] at h
      | some found =>
        obtain ⟨item, t⟩ := found
        rw [readForm_append hrest fuel hk hitem]
        simp only [hitem] at h ⊢
        split at h
        · next u hu =>
          obtain ⟨⟨items, after'⟩, hitems, hfound⟩ := Option.map_eq_some_iff.mp h
          cases hfound
          rw [skipSpace_append_of_cons rest hu]
          simp [readItems_append hrest fuel hk hitems]
        · next u hu =>
          cases h
          rw [skipSpace_append_of_cons rest hu]
          rfl
        · cases h

theorem readFields_append (hrest : Stops rest) : ∀ (fuel : Nat) {fuel' : Nat} {s after : Text}
    {fs : List (Option Text × Form)}, fuel ≤ fuel' → readFields fuel s = some (fs, after) →
      readFields fuel' (s ++ rest) = some (fs, after ++ rest)
  | 0, _, _, _, _, _, h => by cases h
  | fuel + 1, fuel', s, after, fs, hfuel, h => by
      obtain ⟨k, rfl⟩ : ∃ k, fuel' = k + 1 := ⟨fuel' - 1, by omega⟩
      have hk : fuel ≤ k := by omega
      rw [readFields] at h ⊢
      split at h
      · next t ht =>
        rw [skipSpace_append_of_cons rest ht]
        cases hkey : readString t with
        | none => simp [hkey] at h
        | some found =>
          obtain ⟨key, u⟩ := found
          simp only [hkey, readString_append rest hkey] at h ⊢
          split at h
          · next v hv =>
            rw [skipSpace_append_of_cons rest hv]
            cases hvalue : readForm fuel v with
            | none => simp [hvalue] at h
            | some found =>
              obtain ⟨value, w⟩ := found
              simp only [hvalue, readForm_append hrest fuel hk hvalue] at h ⊢
              split at h
              · next x hx =>
                obtain ⟨⟨fields, after'⟩, hfields, hfound⟩ := Option.map_eq_some_iff.mp h
                cases hfound
                rw [skipSpace_append_of_cons rest hx]
                simp [readFields_append hrest fuel hk hfields]
              · next x hx =>
                cases h
                rw [skipSpace_append_of_cons rest hx]
                rfl
              · cases h
          · cases h
      · cases h

end

/-! ## Putting forms together -/

/-- Some text spells the form. -/
def Form.Spelled (f : Form) : Prop := ∃ s, Form.read? s = some f

theorem Form.read?_of_readForm {f : Form} (h : readForm n s = some (f, after))
    (hn : n ≤ 2 * s.length + 1) (hafter : skipSpace after = []) : Form.read? s = some f := by
  have hread := readForm_append stops_nil n hn h
  simp only [List.append_nil] at hread
  simp [Form.read?, hread, hafter]

theorem Form.Spelled.string (s : Text) : Form.Spelled (.string (some s)) := by
  have hread : readForm 1 (writeString s) = some (.string (some s), []) := by
    have hstring := readString_write s []
    simp [writeString, readForm, skipSpace, isSpace, hstring]
  exact ⟨writeString s, Form.read?_of_readForm hread (by omega) rfl⟩

theorem Form.Spelled.bool (b : Bool) : Form.Spelled (.bool b) := by
  cases b with
  | false => exact ⟨"false", rfl⟩
  | true => exact ⟨"true", rfl⟩

/-- A text of a form is read in front of what may stand behind a value. -/
theorem readForm_of_spelled {f : Form} (h : Form.read? s = some f) (hrest : Stops rest)
    (hn : 2 * s.length + 1 ≤ n) :
    ∃ after, readForm n (s ++ rest) = some (f, after) ∧ skipSpace after = rest := by
  simp only [Form.read?] at h
  split at h
  · next f' after' hread =>
    split at h
    · next hend =>
      obtain rfl := Option.some.inj h
      refine ⟨after' ++ rest, readForm_append hrest _ hn hread, ?_⟩
      rw [skipSpace_append_of_nil (List.isEmpty_iff.mp hend), hrest.skipSpace]
    · cases h
  · cases h

/-- The texts of some forms with commas between them are read up to the bracket. -/
theorem exists_items {fs : List Form} (hfs : fs ≠ []) (h : ∀ f ∈ fs, f.Spelled) :
    ∃ s, ∀ rest fuel, 2 * s.length + 2 ≤ fuel → readItems fuel (s ++ ']' :: rest) = some (fs, rest) := by
  induction fs with
  | nil => exact absurd rfl hfs
  | cons f fs ih =>
      obtain ⟨s, hs⟩ := h f List.mem_cons_self
      cases fs with
      | nil =>
          refine ⟨s, fun rest fuel hfuel => ?_⟩
          obtain ⟨k, rfl⟩ : ∃ k, fuel = k + 1 := ⟨fuel - 1, by omega⟩
          obtain ⟨after, hread, hafter⟩ :=
            readForm_of_spelled (n := k) hs (stops_bracket rest) (by omega)
          simp [readItems, hread, hafter]
      | cons g fs =>
          obtain ⟨t, ht⟩ := ih (List.cons_ne_nil g fs) fun x hx => h x (List.mem_cons_of_mem f hx)
          refine ⟨s ++ ',' :: t, fun rest fuel hfuel => ?_⟩
          rw [List.length_append, List.length_cons] at hfuel
          obtain ⟨k, rfl⟩ : ∃ k, fuel = k + 1 := ⟨fuel - 1, by omega⟩
          obtain ⟨after, hread, hafter⟩ :=
            readForm_of_spelled (n := k) hs (stops_comma (t ++ ']' :: rest)) (by omega)
          rw [List.append_assoc, List.cons_append]
          simp [readItems, hread, hafter, ht rest k (by omega)]

theorem Form.Spelled.array {fs : List Form} (h : ∀ f ∈ fs, f.Spelled) : Form.Spelled (.array fs) := by
  by_cases hfs : fs = []
  · exact ⟨"[]", by rw [hfs]; rfl⟩
  · obtain ⟨s, hs⟩ := exists_items hfs h
    have hread := readForm_bracket (hs [] (2 * s.length + 2) (Nat.le_refl _))
    refine ⟨'[' :: (s ++ [']']), Form.read?_of_readForm hread ?_ rfl⟩
    simp only [List.length_cons, List.length_append, List.length_nil]
    omega

/-- Keys and the texts of their forms with commas between them are read up to the brace. -/
theorem exists_fields {fs : List (Option Text × Form)} (hfs : fs ≠ [])
    (h : ∀ f ∈ fs, f.1.isSome ∧ f.2.Spelled) : ∃ s, ∀ rest fuel, 2 * s.length + 2 ≤ fuel →
      readFields fuel (s ++ '\x7d' :: rest) = some (fs, rest) := by
  induction fs with
  | nil => exact absurd rfl hfs
  | cons f fs ih =>
      obtain ⟨key, value⟩ := f
      obtain ⟨hkey, s, hs⟩ := h _ List.mem_cons_self
      obtain ⟨key, rfl⟩ := Option.isSome_iff_exists.mp hkey
      cases fs with
      | nil =>
          refine ⟨writeString key ++ ':' :: s, fun rest fuel hfuel => ?_⟩
          rw [List.length_append, List.length_cons] at hfuel
          obtain ⟨k, rfl⟩ : ∃ k, fuel = k + 1 := ⟨fuel - 1, by omega⟩
          obtain ⟨after, hread, hafter⟩ :=
            readForm_of_spelled (n := k) hs (stops_brace rest) (by omega)
          rw [List.append_assoc, List.cons_append]
          exact readFields_last key hread hafter
      | cons g fs =>
          obtain ⟨t, ht⟩ := ih (List.cons_ne_nil g fs) fun x hx => h x (List.mem_cons_of_mem _ hx)
          refine ⟨writeString key ++ ':' :: s ++ ',' :: t, fun rest fuel hfuel => ?_⟩
          simp only [List.length_append, List.length_cons] at hfuel
          obtain ⟨k, rfl⟩ : ∃ k, fuel = k + 1 := ⟨fuel - 1, by omega⟩
          obtain ⟨after, hread, hafter⟩ :=
            readForm_of_spelled (n := k) hs (stops_comma (t ++ '\x7d' :: rest)) (by omega)
          have hall := readFields_more key hread hafter (ht rest k (by omega))
          simpa using hall

theorem Form.Spelled.object {fs : List (Option Text × Form)} (h : ∀ f ∈ fs, f.1.isSome ∧ f.2.Spelled) :
    Form.Spelled (.object fs) := by
  by_cases hfs : fs = []
  · exact ⟨"\x7b\x7d", by rw [hfs]; rfl⟩
  · obtain ⟨s, hs⟩ := exists_fields hfs h
    have hread := readForm_brace (hs [] (2 * s.length + 2) (Nat.le_refl _))
    refine ⟨'\x7b' :: (s ++ ['\x7d']), Form.read?_of_readForm hread ?_ rfl⟩
    simp only [List.length_cons, List.length_append, List.length_nil]
    omega

end Crosscheck.Json
