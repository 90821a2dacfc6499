import Crosscheck.Proofs.Json.Numerals
import Crosscheck.Proofs.Json.Strings
import Crosscheck.Proofs.Json.Structure
/-!
# Reading back what was written

The compact writing of a value is read as that value if each of its numbers is, and if it is not nested too
deeply. Fields that are in order stay in order.
-/

namespace Crosscheck.Json

/-! ## Numbers as forms -/

variable {s rest after : Text} {fuel fuel' : Nat} {n : Numeral} {f : Form}

theorem skipSpace_append (h : skipSpace s ≠ []) (rest : Text) :
    skipSpace (s ++ rest) = skipSpace s ++ rest := by
  rw [skipSpace, List.dropWhile_append, if_neg (by simpa [skipSpace] using h), skipSpace]

theorem skipSpace_append_of_nil (h : skipSpace s = []) (rest : Text) :
    skipSpace (s ++ rest) = skipSpace rest := by
  rw [skipSpace, List.dropWhile_append, if_pos (by simpa [skipSpace] using h), skipSpace]

theorem Stops.skipSpace (h : Stops rest) : skipSpace rest = rest := by
  cases rest with
  | nil => rfl
  | cons c rest => rcases h.cons with rfl | rfl | rfl <;> rfl

theorem head_of_readNumeral (h : readNumeral s = some (n, after)) :
    ∃ c t, s = c :: t ∧ (c = '-' ∨ Text.isAsciiDigit c) := by
  cases s with
  | nil => cases h
  | cons c t =>
      refine ⟨c, t, rfl, ?_⟩
      by_cases hc : c = '-'
      · exact .inl hc
      · right
        by_contra hdigit
        have hnone : readDigits (c :: t) = none := by simp [readDigits, hdigit]
        simp [readNumeral_of_ne hc, readUnsigned, readWhole, hnone] at h

theorem readForm_eq_number :
    readForm (fuel + 1) s = some (.number n, after) ↔ readNumeral (skipSpace s) = some (n, after) := by
  rw [readForm]
  constructor
  · intro h
    split at h
    · cases h
    · next c rest hs =>
      rw [hs]
      split at h
      · simp at h
      split at h
      · split at h <;> simp at h
      split at h
      · split at h <;> simp at h
      split at h
      · simp at h
      split at h
      · simp at h
      split at h
      · simp at h
      simpa [Prod.ext_iff] using h
  · intro h
    obtain ⟨c, t, hs, hc⟩ := head_of_readNumeral h
    rw [hs] at h ⊢
    have hother : c ≠ '"' ∧ c ≠ '[' ∧ c ≠ '\x7b' ∧ c ≠ 't' ∧ c ≠ 'f' ∧ c ≠ 'n' := by
      rcases hc with rfl | hc
      · decide
      · refine ⟨?_, ?_, ?_, ?_, ?_, ?_⟩ <;> rintro rfl <;> cases hc
    simp [hother, h]

theorem readForm_number_append (h : readForm (fuel + 1) s = some (.number n, after))
    (hrest : Stops rest) :
    readForm (fuel' + 1) (s ++ rest) = some (.number n, after ++ rest) := by
  rw [readForm_eq_number] at h ⊢
  have hne : skipSpace s ≠ [] := by
    obtain ⟨c, t, hs, -⟩ := head_of_readNumeral h
    simp [hs]
  rw [skipSpace_append hne, readNumeral_append hrest, h]
  rfl

/-- A number that is read by itself is read in front of other tokens. -/
theorem readForm_of_read? {m : Number} (h : read? s = some (.number m)) (hrest : Stops rest) :
    ∃ n after, readForm (fuel + 1) (s ++ rest) = some (.number n, after) ∧ skipSpace after = rest ∧
      n.value? = some m := by
  obtain ⟨f, hf, hvalue⟩ := Option.bind_eq_some_iff.mp h
  simp only [Form.read?] at hf
  split at hf
  · next form after hform =>
    split at hf
    · next hend =>
      obtain rfl := Option.some.inj hf
      simp only [Form.value?] at hvalue
      split at hvalue
      · cases form with
        | number n =>
            have hvalue : n.value? = some m := by simpa [Form.toJson?] using hvalue
            refine ⟨n, after ++ rest, readForm_number_append hform hrest, ?_, hvalue⟩
            rw [skipSpace_append_of_nil (List.isEmpty_iff.mp hend), hrest.skipSpace]
        | _ => simp [Form.toJson?] at hvalue
      · cases hvalue
    · cases hf
  · cases hf

theorem read?_of_readNumeral {m : Number} (hnumeral : readNumeral s = some (n, []))
    (hvalue : n.value? = some m) : read? s = some (.number m) := by
  obtain ⟨c, t, hs, hc⟩ := head_of_readNumeral hnumeral
  have hspace : skipSpace s = s := by
    have hc : isSpace c = false := by
      rcases hc with rfl | hc
      · rfl
      · rw [← Bool.not_eq_true]
        intro hspace
        simp only [isSpace, Bool.or_eq_true, beq_iff_eq] at hspace
        rcases hspace with ((rfl | rfl) | rfl) | rfl <;> cases hc
    simp [skipSpace, hs, hc]
  have hform : readForm (2 * s.length + 1) s = some (.number n, []) := by
    rw [readForm_eq_number, hspace, hnumeral]
  simp [read?, Form.read?, hform, skipSpace, Form.value?, Form.depth, Form.toJson?, hvalue]

theorem read?_integer {i : Int} (hi : Number.WellFormed (.integer i)) :
    read? (writeNumber (.integer i)) = some (.number (.integer i)) :=
  read?_of_readNumeral (readNumeral_ofInt i) (value?_ofInt hi.1 hi.2)

/-! ## Fields in order -/

theorem insertField_last {α : Type} {key : Text} {value : α} {fields : List (Text × α)}
    (h : ∀ field ∈ fields, Text.precedes field.1 key ∧ field.1 ≠ key) :
    insertField key value fields = fields ++ [(key, value)] := by
  induction fields with
  | nil => rfl
  | cons field fields ih =>
      obtain ⟨k, v⟩ := field
      rw [List.forall_mem_cons] at h
      obtain ⟨⟨hprecedes, hne⟩, hfields⟩ := h
      have hnot : ¬ Text.precedes key k := fun hback => hne (Text.precedes_antisymm hprecedes hback)
      simp only at hne
      simp [insertField, hne, hnot, ih hfields]

theorem fieldsToJson?_cons {key : Text} {form : Form} {value : Json} {sofar : List (Text × Json)}
    {forms : List (Option Text × Form)} (hvalue : form.toJson? = some value)
    (hsofar : ∀ field ∈ sofar, Text.precedes field.1 key ∧ field.1 ≠ key) :
    Form.fieldsToJson? sofar ((some key, form) :: forms) =
      Form.fieldsToJson? (sofar ++ [(key, value)]) forms := by
  simp [Form.fieldsToJson?, hvalue, insertField_last hsofar]

/-! ## Values -/

mutual

/-- How many arrays and objects stand around the innermost part. -/
def depth : Json → Nat
  | .array items => depthOfItems items + 1
  | .object fields => depthOfFields fields + 1
  | _ => 0

def depthOfItems : List Json → Nat
  | [] => 0
  | v :: vs => max (depth v) (depthOfItems vs)

def depthOfFields : List (Text × Json) → Nat
  | [] => 0
  | (_, v) :: rest => max (depth v) (depthOfFields rest)

end

/-- Every one of the numbers is read back. -/
def Rereads (numbers : List Number) : Prop :=
  ∀ m ∈ numbers, read? (writeNumber m) = some (.number m)

theorem Rereads.left {ms ns : List Number} (h : Rereads (ms ++ ns)) : Rereads ms :=
  fun m hm => h m (List.mem_append_left ns hm)

theorem Rereads.right {ms ns : List Number} (h : Rereads (ms ++ ns)) : Rereads ns :=
  fun m hm => h m (List.mem_append_right ms hm)

theorem length_write_pos {v : Json} (h : Rereads v.numbers) : 0 < (write v).length := by
  rw [List.length_pos_iff]
  cases v with
  | number m =>
      have hm := h m (List.mem_singleton.mpr rfl)
      intro hnil
      rw [write] at hnil
      rw [hnil] at hm
      cases hm
  | bool b => cases b <;> simp [write]
  | _ => simp [write, writeString]

theorem ne_bracket_of_readItems {fs : List Form} (h : readItems fuel s = some (fs, after)) (t : Text) :
    skipSpace s ≠ ']' :: t := by
  intro hs
  cases fuel with
  | zero => cases h
  | succ fuel =>
      have hnone : readForm fuel s = none := by
        cases fuel with
        | zero => rfl
        | succ fuel =>
            have hnumeral : readNumeral (']' :: t) = none := rfl
            simp [readForm, hs, hnumeral]
      simp [readItems, hnone] at h

theorem ne_brace_of_readFields {fs : List (Option Text × Form)}
    (h : readFields fuel s = some (fs, after)) (t : Text) : skipSpace s ≠ '\x7d' :: t := by
  intro hs
  cases fuel with
  | zero => cases h
  | succ fuel => simp [readFields, hs] at h

theorem readForm_bracket {fs : List Form} (h : readItems fuel s = some (fs, after)) :
    readForm (fuel + 1) ('[' :: s) = some (.array fs, after) := by
  -- an empty array is looked for before values are read
  have hhead := ne_bracket_of_readItems h
  have hopen : skipSpace ('[' :: s) = '[' :: s := rfl
  simp [readForm, hopen, h]

theorem readForm_brace {fs : List (Option Text × Form)} (h : readFields fuel s = some (fs, after)) :
    readForm (fuel + 1) ('\x7b' :: s) = some (.object fs, after) := by
  have hhead := ne_brace_of_readFields h
  have hopen : skipSpace ('\x7b' :: s) = '\x7b' :: s := rfl
  simp [readForm, hopen, h]

theorem readFields_last (key : Text) {t : Text} (h : readForm fuel s = some (f, after))
    (hafter : skipSpace after = '\x7d' :: t) :
    readFields (fuel + 1) (writeString key ++ ':' :: s) = some ([(some key, f)], t) := by
  have hkey := readString_write key (':' :: s)
  have hquote (t : Text) : skipSpace ('"' :: t) = '"' :: t := rfl
  have hcolon (t : Text) : skipSpace (':' :: t) = ':' :: t := rfl
  simp [readFields, writeString, hquote, hcolon, hkey, h, hafter]

theorem readFields_more (key : Text) {t : Text} {fs : List (Option Text × Form)}
    (h : readForm fuel s = some (f, after)) (hafter : skipSpace after = ',' :: t)
    (hrest : readFields fuel t = some (fs, rest)) :
    readFields (fuel + 1) (writeString key ++ ':' :: s) = some ((some key, f) :: fs, rest) := by
  have hkey := readString_write key (':' :: s)
  have hquote (t : Text) : skipSpace ('"' :: t) = '"' :: t := rfl
  have hcolon (t : Text) : skipSpace (':' :: t) = ':' :: t := rfl
  simp [readFields, writeString, hquote, hcolon, hkey, h, hafter, hrest]

theorem Ascending.sofar {α : Type} {sofar fields : List (Text × α)} {key : Text} {value : α}
    (h : Ascending (sofar ++ (key, value) :: fields)) :
    ∀ field ∈ sofar, Text.precedes field.1 key ∧ field.1 ≠ key :=
  fun field hfield => (List.pairwise_append.mp h).2.2 field hfield _ List.mem_cons_self

/-- The form is read from the front of the text, and stands for the value. -/
def ReadsAs (fuel : Nat) (s rest : Text) (v : Json) : Prop := ∃ f after,
  readForm fuel s = some (f, after) ∧ skipSpace after = rest ∧ f.toJson? = some v ∧ f.depth = v.depth

mutual

theorem readForm_write : ∀ (v : Json) (fuel : Nat) {rest : Text}, 2 * (write v).length ≤ fuel + 1 →
    Stops rest → v.WellFormed → Rereads v.numbers → ReadsAs (fuel + 1) (write v ++ rest) rest v
  | .null, _, rest, _, hrest, _, _ => ⟨.null, rest, rfl, hrest.skipSpace, rfl, rfl⟩
  | .bool true, _, rest, _, hrest, _, _ => ⟨.bool true, rest, rfl, hrest.skipSpace, rfl, rfl⟩
  | .bool false, _, rest, _, hrest, _, _ => ⟨.bool false, rest, rfl, hrest.skipSpace, rfl, rfl⟩
  | .number m, _, rest, _, hrest, _, hnumbers => by
      obtain ⟨n, after, hform, hafter, hvalue⟩ :=
        readForm_of_read? (hnumbers m (List.mem_singleton.mpr rfl)) hrest
      exact ⟨.number n, after, hform, hafter, by simp [Form.toJson?, hvalue], rfl⟩
  | .string s, _, rest, _, hrest, _, _ => by
      have hstring := readString_write s rest
      refine ⟨.string (some s), rest, ?_, hrest.skipSpace, rfl, rfl⟩
      simp [write, writeString, readForm, skipSpace, isSpace, hstring]
  | .array [], _, rest, _, hrest, _, _ => ⟨.array [], rest, rfl, hrest.skipSpace, rfl, rfl⟩
  | .array (v :: vs), fuel, rest, hfuel, hrest, hv, hnumbers => by
      simp only [write, List.length_cons, List.length_append] at hfuel
      obtain ⟨k, rfl⟩ : ∃ k, fuel = k + 1 := ⟨fuel - 1, by omega⟩
      obtain ⟨fs, hread, hvalues, hdepth⟩ := readItems_write (v :: vs) (List.cons_ne_nil v vs)
        k rest (by omega) hv hnumbers
      refine ⟨.array fs, rest, ?_, hrest.skipSpace, ?_, ?_⟩
      · simpa [write] using readForm_bracket hread
      · simp [Form.toJson?, hvalues]
      · simp [Form.depth, depth, hdepth]
  | .object [], _, rest, _, hrest, _, _ => ⟨.object [], rest, rfl, hrest.skipSpace, rfl, rfl⟩
  | .object (field :: fields), fuel, rest, hfuel, hrest, hv, hnumbers => by
      simp only [write, List.length_cons, List.length_append] at hfuel
      obtain ⟨k, rfl⟩ : ∃ k, fuel = k + 1 := ⟨fuel - 1, by omega⟩
      obtain ⟨fs, hread, hvalues, hdepth⟩ := readFields_write (field :: fields)
        (List.cons_ne_nil field fields) k rest (by omega) hv.2 hnumbers
      refine ⟨.object fs, rest, ?_, hrest.skipSpace, ?_, ?_⟩
      · simpa [write] using readForm_brace hread
      · simp [Form.toJson?, hvalues [] hv.1]
      · simp [Form.depth, depth, hdepth]

theorem readItems_write : ∀ (vs : List Json), vs ≠ [] → ∀ (fuel : Nat) (rest : Text),
    2 * (writeItems vs).length ≤ fuel → ItemsWellFormed vs → Rereads (itemNumbers vs) →
      ∃ fs, readItems (fuel + 1) (writeItems vs ++ ']' :: rest) = some (fs, rest) ∧
        Form.itemsToJson? fs = some vs ∧ Form.depthOfItems fs = depthOfItems vs
  | [v], _, fuel, rest, hfuel, hv, hnumbers => by
      have hpos := length_write_pos hnumbers.left
      simp only [writeItems] at hfuel
      obtain ⟨k, rfl⟩ : ∃ k, fuel = k + 1 := ⟨fuel - 1, by omega⟩
      obtain ⟨f, after, hread, hafter, hvalue, hdepth⟩ :=
        readForm_write v k hfuel (stops_bracket rest) hv.1 hnumbers.left
      refine ⟨[f], ?_, ?_, ?_⟩
      · simp [writeItems, readItems, hread, hafter]
      · simp [Form.itemsToJson?, hvalue]
      · simp [Form.depthOfItems, depthOfItems, hdepth]
  | v :: w :: vs, _, fuel, rest, hfuel, hv, hnumbers => by
      have hpos := length_write_pos hnumbers.left
      simp only [writeItems, List.length_append, List.length_cons] at hfuel
      obtain ⟨k, rfl⟩ : ∃ k, fuel = k + 1 := ⟨fuel - 1, by omega⟩
      obtain ⟨f, after, hread, hafter, hvalue, hdepth⟩ :=
        readForm_write v k (by omega) (stops_comma (writeItems (w :: vs) ++ ']' :: rest)) hv.1
          hnumbers.left
      obtain ⟨fs, hreads, hvalues, hdepths⟩ :=
        readItems_write (w :: vs) (List.cons_ne_nil w vs) k rest (by omega) hv.2
          hnumbers.right
      refine ⟨f :: fs, ?_, ?_, ?_⟩
      · have hsplit : writeItems (v :: w :: vs) = write v ++ ',' :: writeItems (w :: vs) := rfl
        rw [hsplit, List.append_assoc, List.cons_append, readItems, hread]
        simp only [hafter, hreads, Option.map_some]
      · simp [Form.itemsToJson?, hvalue, hvalues]
      · simp [Form.depthOfItems, depthOfItems, hdepth, hdepths]

theorem readFields_write : ∀ (fields : List (Text × Json)), fields ≠ [] → ∀ (fuel : Nat) (rest : Text),
    2 * (writeFields fields).length ≤ fuel → FieldsWellFormed fields → Rereads (fieldNumbers fields) →
      ∃ fs, readFields (fuel + 1) (writeFields fields ++ '\x7d' :: rest) = some (fs, rest) ∧
        (∀ sofar, Ascending (sofar ++ fields) → Form.fieldsToJson? sofar fs = some (sofar ++ fields)) ∧
          Form.depthOfFields fs = depthOfFields fields
  | [(key, v)], _, fuel, rest, hfuel, hv, hnumbers => by
      simp only [writeFields, List.length_append, List.length_cons] at hfuel
      obtain ⟨k, rfl⟩ : ∃ k, fuel = k + 1 := ⟨fuel - 1, by omega⟩
      obtain ⟨f, after, hread, hafter, hvalue, hdepth⟩ :=
        readForm_write v k (by omega) (stops_brace rest) hv.1 hnumbers.left
      refine ⟨[(some key, f)], ?_, ?_, ?_⟩
      · simpa [writeFields] using readFields_last key hread hafter
      · intro sofar hsofar
        rw [fieldsToJson?_cons hvalue hsofar.sofar, Form.fieldsToJson?]
      · simp [Form.depthOfFields, depthOfFields, hdepth]
  | (key, v) :: field :: fields, _, fuel, rest, hfuel, hv, hnumbers => by
      simp only [writeFields, List.length_append, List.length_cons] at hfuel
      obtain ⟨k, rfl⟩ : ∃ k, fuel = k + 1 := ⟨fuel - 1, by omega⟩
      obtain ⟨f, after, hread, hafter, hvalue, hdepth⟩ :=
        readForm_write v k (by omega) (stops_comma (writeFields (field :: fields) ++ '\x7d' :: rest))
          hv.1 hnumbers.left
      obtain ⟨fs, hreads, hvalues, hdepths⟩ := readFields_write (field :: fields)
        (List.cons_ne_nil field fields) k rest (by omega) hv.2 hnumbers.right
      refine ⟨(some key, f) :: fs, ?_, ?_, ?_⟩
      · simpa [writeFields] using readFields_more key hread hafter hreads
      · intro sofar hsofar
        rw [fieldsToJson?_cons hvalue hsofar.sofar, hvalues (sofar ++ [(key, v)]) (by simpa using hsofar)]
        simp
      · simp [Form.depthOfFields, depthOfFields, hdepth, hdepths]

end

/-- The writing of a value whose numbers are read back, and which is not nested too deeply, is read as that
value. -/
theorem read?_write {v : Json} (hv : v.WellFormed) (hdepth : v.depth ≤ Form.maxDepth)
    (hnumbers : Rereads v.numbers) : read? (write v) = some v := by
  obtain ⟨f, after, hread, hafter, hvalue, hform⟩ :=
    readForm_write v (2 * (write v).length) (by omega) stops_nil hv hnumbers
  rw [List.append_nil] at hread
  have hread? : Form.read? (write v) = some f := by simp [Form.read?, hread, hafter]
  simp [read?, hread?, Form.value?, hform, hdepth, hvalue]

end Crosscheck.Json
