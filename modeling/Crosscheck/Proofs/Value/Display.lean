import Crosscheck.Proofs.Json.Numerals
import Crosscheck.Proofs.Number.Printing
import Crosscheck.Proofs.Text.Quoted
import Crosscheck.Proofs.Value.Structure
import Crosscheck.Value.Display
/-!
# What a report shows of a value

Values in canonical form have different texts unless they are the same. The text of a value without quotes
and brackets ends at the next comma or closing bracket; a quoted text ends where it is closed; and no item
of a sequence reads like a field, because a key is followed by a colon.
-/

namespace Crosscheck.Value

open Json (Stops stops_nil stops_bracket stops_comma)

variable {v w : Value} {s t : Text}

/-! ## Values without quotes and brackets -/

/-- The text has neither quotes nor brackets. -/
def Bare : Value → Prop
  | .string _ | .sequence _ | .mapping _ => False
  | _ => True

/-- The values that are shown by a word. -/
def words : List Value := [.null, .bool true, .bool false, .float .nan, .float (.infinite true),
  .float (.infinite false)]

/-- The value is shown by digits. -/
def IsNumber : Value → Prop
  | .integer _ | .float (.finite ..) => True
  | _ => False

theorem bare_cases (hv : v.Bare) : v ∈ words ∨ v.IsNumber := by
  cases v with
  | null => exact .inl (by simp [words])
  | bool b => cases b <;> exact .inl (by simp [words])
  | integer i => exact .inr trivial
  | float d =>
      cases d with
      | nan => exact .inl (by simp [words])
      | infinite b => cases b <;> exact .inl (by simp [words])
      | finite b x => exact .inr trivial
  | _ => cases hv

/-- What numbers are written with. -/
def figure (c : Char) : Bool := Text.isAsciiDigit c || c == '-' || c == '.'

/-- What the text of such a value is made of. -/
def plain (c : Char) : Bool := c.isAlpha || figure c

theorem display_word (hv : v ∈ words) :
    (∃ c ∈ display v, figure c = false) ∧ (∀ c ∈ display v, plain c) ∧ display v ≠ [] := by
  have hwords : ∀ v ∈ words, ((display v).any fun c => !figure c) ∧ (display v).all plain ∧
      !(display v).isEmpty := by decide
  obtain ⟨hletter, hplain, hne⟩ := hwords v hv
  rw [List.any_eq_true] at hletter
  exact ⟨by simpa using hletter, List.all_eq_true.mp hplain, by simpa using hne⟩

theorem display_words_nodup : (words.map display).Nodup := by decide

theorem figure_of_mem_signed {digits : Text} {negative : Bool}
    (hdigits : ∀ c ∈ digits, Text.isAsciiDigit c ∨ c = '.') :
    ∀ c ∈ Double.signText negative ++ digits, figure c := by
  intro c hc
  rcases List.mem_append.mp hc with hsign | hc
  · cases negative with
    | false => cases hsign
    | true =>
        rw [List.mem_singleton.mp hsign]
        rfl
  · rcases hdigits c hc with hdigit | rfl
    · simp [figure, hdigit]
    · rfl

theorem display_number (hv : v.IsNumber) : (∀ c ∈ display v, figure c) ∧ display v ≠ [] := by
  cases v with
  | integer i =>
      rw [display, Text.ofInt_eq]
      exact ⟨figure_of_mem_signed fun c hc => .inl (Text.isAsciiDigit_of_mem_ofNat hc),
        by simp [Text.ofNat_ne_nil]⟩
  | float d =>
      cases d with
      | finite b x =>
          exact ⟨figure_of_mem_signed fun c hc => Decimal.mem_positional hc,
            by simp [display, Double.textBy, Decimal.positional_ne_nil]⟩
      | _ => cases hv
  | _ => cases hv

theorem display_bare (hv : v.Bare) : (∀ c ∈ display v, plain c) ∧ display v ≠ [] := by
  rcases bare_cases hv with hword | hnumber
  · exact (display_word hword).2
  · obtain ⟨hfigures, hne⟩ := display_number hnumber
    exact ⟨fun c hc => by simp [plain, hfigures c hc], hne⟩

theorem value_ne_of_canonical {d : Double} (hd : d.IsFinite) (hv : (Value.float d).Canonical) {j : Int}
    (hlow : -2 ^ 63 ≤ j) (hhigh : j ≤ 2 ^ 63) : d.value ≠ j := by
  intro hvalue
  have hrange : minInteger ≤ j ∧ j ≤ maxInteger + 1 := by
    simp only [minInteger, maxInteger]
    omega
  have hinteger : ofDouble d = .integer (min j maxInteger) := by
    simp only [ofDouble, (Double.toInt?_eq_some hd).mpr hvalue, if_pos hrange]
  rw [Canonical, hinteger] at hv
  cases hv

theorem integer_ne_finite {i : Int} {negative : Bool} {x : Magnitude} (hi : (Value.integer i).Canonical)
    (hx : (Value.float (.finite negative x)).Canonical) :
    Text.ofInt i ≠ (Double.finite negative x).textBy Decimal.positional := by
  intro h
  obtain ⟨hmin, hmax⟩ := hi
  simp only [minInteger, maxInteger] at hmin hmax
  obtain ⟨j, hj, hlow, hhigh⟩ := Double.exists_integer_of_text (i := i) (by omega) h.symm
  exact value_ne_of_canonical ⟨negative, x, rfl⟩ hx hlow hhigh hj

theorem value_ne_zero {negative : Bool} {x : Magnitude}
    (hx : (Value.float (.finite negative x)).Canonical) : x.value ≠ 0 := by
  intro hzero
  apply value_ne_of_canonical (j := 0) ⟨negative, x, rfl⟩ hx (by decide) (by decide)
  cases negative <;> simp [Double.value, hzero]

theorem display_inj_of_number (hv : v.IsNumber) (hw : w.IsNumber) (hcv : v.Canonical)
    (hcw : w.Canonical) (h : display v = display w) : v = w := by
  cases v with
  | integer i =>
      cases w with
      | integer j =>
          have hvalue := congrArg Text.signedDecimal h
          rw [display, display, Text.signedDecimal_ofInt, Text.signedDecimal_ofInt] at hvalue
          rw [Int.cast_inj.mp hvalue]
      | float e =>
          cases e with
          | finite b y => exact absurd h (integer_ne_finite hcv hcw)
          | _ => cases hw
      | _ => cases hw
  | float d =>
      cases d with
      | finite b x =>
          cases w with
          | integer j => exact absurd h.symm (integer_ne_finite hcw hcv)
          | float e =>
              cases e with
              | finite b' y =>
                  rw [Double.finite_eq_of_text (value_ne_zero hcv) (value_ne_zero hcw) h]
              | _ => cases hw
          | _ => cases hw
      | _ => cases hv
  | _ => cases hv

theorem display_word_ne_number (hv : v ∈ words) (hw : w.IsNumber) : display v ≠ display w := by
  obtain ⟨⟨c, hc, hletter⟩, -⟩ := display_word hv
  intro h
  rw [h] at hc
  rw [(display_number hw).1 c hc] at hletter
  cases hletter

theorem display_inj_of_bare (hv : v.Bare) (hw : w.Bare) (hcv : v.Canonical) (hcw : w.Canonical)
    (h : display v = display w) : v = w := by
  rcases bare_cases hv with hword | hnumber <;> rcases bare_cases hw with hword' | hnumber'
  · exact List.inj_on_of_nodup_map display_words_nodup hword hword' h
  · exact absurd h (display_word_ne_number hword hnumber')
  · exact absurd h.symm (display_word_ne_number hword' hnumber)
  · exact display_inj_of_number hnumber hnumber' hcv hcw h

/-! ## Where the text of a value ends -/

theorem plain_ne {c : Char} (hc : plain c) : c ≠ ',' ∧ c ≠ ']' ∧ c ≠ '\x7d' ∧ c ≠ '"' ∧ c ≠ '[' ∧
    c ≠ ':' := by
  refine ⟨?_, ?_, ?_, ?_, ?_, ?_⟩ <;> rintro rfl <;> cases hc

theorem takeWhile_display (hv : v.Bare) (hs : Stops s) : (display v ++ s).takeWhile plain = display v := by
  rw [List.takeWhile_append_of_pos (display_bare hv).1]
  cases s with
  | nil => simp
  | cons c s => rcases hs.cons with rfl | rfl | rfl <;> simp [plain, figure, Text.isAsciiDigit]

theorem head_display (v : Value) : ∃ c rest, display v = c :: rest ∧
    (v.Bare ∧ plain c ∨ ¬ v.Bare ∧ ((∃ a, v = .string a) ∧ c = '"' ∨ c = '[')) := by
  by_cases hv : v.Bare
  · obtain ⟨hplain, hne⟩ := display_bare hv
    obtain ⟨c, rest, hc⟩ := List.exists_cons_of_ne_nil hne
    exact ⟨c, rest, hc, .inl ⟨hv, hplain c (by simp [hc])⟩⟩
  · cases v with
    | string a => exact ⟨_, _, rfl, .inr ⟨hv, .inl ⟨⟨a, rfl⟩, rfl⟩⟩⟩
    | sequence items => exact ⟨_, _, rfl, .inr ⟨hv, .inr rfl⟩⟩
    | mapping fields => cases fields <;> exact ⟨_, _, rfl, .inr ⟨hv, .inr rfl⟩⟩
    | _ => exact absurd trivial hv

theorem bare_append_inj (hcv : v.Canonical) (hcw : w.Canonical) (hs : Stops s) (ht : Stops t)
    (h : display v ++ s = display w ++ t) (hv : v.Bare) : v = w ∧ s = t := by
  by_cases hw : w.Bare
  · have hcut : display v = display w := by
      rw [← takeWhile_display hv hs, ← takeWhile_display hw ht, h]
    rw [hcut] at h
    exact ⟨display_inj_of_bare hv hw hcv hcw hcut, List.append_cancel_left h⟩
  · obtain ⟨c, rest, hc, ⟨-, hplain⟩ | ⟨hnot, -⟩⟩ := head_display v
    · obtain ⟨d, rest', hd, ⟨hbare, -⟩ | ⟨-, hopen⟩⟩ := head_display w
      · exact absurd hbare hw
      · rw [hc, hd, List.cons_append, List.cons_append, List.cons.injEq] at h
        obtain ⟨-, -, -, hquote, hbracket, -⟩ := plain_ne hplain
        rcases hopen with ⟨-, rfl⟩ | rfl
        · exact absurd h.1 hquote
        · exact absurd h.1 hbracket
    · exact absurd hv hnot

/-! ## Items and fields -/

/-- The items behind the first one. -/
def moreItems (items : List Value) : Text := items.flatMap fun v => [',', ' '] ++ display v

def entry (field : Text × Value) : Text := Text.quoted field.1 ++ [':', ' '] ++ display field.2

/-- The fields behind the first one. -/
def moreFields (fields : List (Text × Value)) : Text := fields.flatMap fun f => [',', ' '] ++ entry f

theorem moreItems_cons (v : Value) (vs : List Value) :
    moreItems (v :: vs) = ',' :: ' ' :: (display v ++ moreItems vs) := rfl

theorem moreFields_cons (field : Text × Value) (fields : List (Text × Value)) :
    moreFields (field :: fields) = ',' :: ' ' :: (entry field ++ moreFields fields) := rfl

theorem displayItems_cons (v : Value) (vs : List Value) :
    displayItems (v :: vs) = display v ++ moreItems vs := by
  induction vs generalizing v with
  | nil => simp [displayItems, moreItems]
  | cons w vs ih => simp [displayItems, ih, moreItems]

theorem displayFields_cons (field : Text × Value) (fields : List (Text × Value)) :
    displayFields (field :: fields) = entry field ++ moreFields fields := by
  induction fields generalizing field with
  | nil => simp [displayFields, moreFields, entry]
  | cons other fields ih => simp [displayFields, ih, moreFields, entry]

theorem stops_moreItems (items : List Value) (s : Text) : Stops (moreItems items ++ ']' :: s) := by
  cases items with
  | nil => exact stops_bracket s
  | cons v vs => exact stops_comma _

theorem stops_moreFields (fields : List (Text × Value)) (s : Text) :
    Stops (moreFields fields ++ ']' :: s) := by
  cases fields with
  | nil => exact stops_bracket s
  | cons field fields => exact stops_comma _

theorem head_display_ne (v : Value) : ∃ c rest, display v = c :: rest ∧ c ≠ ']' ∧ c ≠ ':' := by
  obtain ⟨c, rest, hc, hhead⟩ := head_display v
  refine ⟨c, rest, hc, ?_⟩
  rcases hhead with ⟨-, hplain⟩ | ⟨-, ⟨-, rfl⟩ | rfl⟩
  · obtain ⟨-, hbracket, -, -, -, hcolon⟩ := plain_ne hplain
    exact ⟨hbracket, hcolon⟩
  · decide
  · decide

/-- No item reads like a field: behind a key there is a colon. -/
theorem displayItems_ne_fields (items : List Value) (field : Text × Value)
    (fields : List (Text × Value)) :
    displayItems items ++ ']' :: s ≠ displayFields (field :: fields) ++ ']' :: t := by
  intro h
  cases items with
  | nil => simp [displayItems, displayFields_cons, entry, Text.quoted] at h
  | cons v vs =>
      rw [displayItems_cons, displayFields_cons, List.append_assoc] at h
      obtain ⟨c, rest, hc, hhead⟩ := head_display v
      rcases hhead with ⟨-, hplain⟩ | ⟨-, ⟨⟨a, rfl⟩, -⟩ | rfl⟩
      · rw [hc] at h
        simp only [entry, Text.quoted, List.cons_append, List.cons.injEq] at h
        exact (plain_ne hplain).2.2.2.1 h.1
      · -- a string could be a key, but what is behind it does not begin with a colon
        simp only [display, entry, List.append_assoc] at h
        obtain ⟨-, hbehind⟩ := Text.quoted_append_inj h
        have hstops := stops_moreItems vs s
        rw [hbehind] at hstops
        rcases hstops.cons with hcolon | hcolon | hcolon <;> exact absurd hcolon (by decide)
      · rw [hc] at h
        simp [entry, Text.quoted] at h

theorem sequence_ne_mapping (items : List Value) (fields : List (Text × Value)) :
    display (.sequence items) ++ s ≠ display (.mapping fields) ++ t := by
  intro h
  cases fields with
  | nil =>
      have hempty : display (.mapping []) = ['[', ':', ']'] := rfl
      rw [hempty] at h
      simp only [display, List.cons_append, List.append_assoc, List.nil_append] at h
      have hinner := (List.cons.inj h).2
      cases items with
      | nil => simp [displayItems] at hinner
      | cons v vs =>
          obtain ⟨c, rest, hc, -, hcolon⟩ := head_display_ne v
          rw [displayItems_cons, hc] at hinner
          exact hcolon (List.cons.inj hinner).1
  | cons field fields =>
      simp only [display, List.cons_append, List.append_assoc, List.nil_append] at h
      exact displayItems_ne_fields items field fields (List.cons.inj h).2

theorem moreItems_of_display {items items' : List Value}
    (h : display (.sequence items) ++ s = display (.sequence items') ++ t) :
    moreItems items ++ ']' :: s = moreItems items' ++ ']' :: t := by
  -- a comma in front of both texts makes the first items like the others
  simp only [display, List.cons_append, List.append_assoc, List.nil_append] at h
  have hinner := (List.cons.inj h).2
  have hempty (v : Value) (vs : List Value) (s t : Text) : displayItems (v :: vs) ++ s ≠ ']' :: t := by
    obtain ⟨c, rest, hc, hbracket, -⟩ := head_display_ne v
    rw [displayItems_cons, hc]
    exact fun hhead => hbracket (List.cons.inj hhead).1
  cases items with
  | nil =>
      cases items' with
      | nil => exact hinner
      | cons w ws => exact absurd hinner.symm (hempty w ws _ _)
  | cons v vs =>
      cases items' with
      | nil => exact absurd hinner (hempty v vs _ _)
      | cons w ws =>
          rw [displayItems_cons, displayItems_cons] at hinner
          simpa [moreItems] using hinner

theorem moreFields_of_display {fields fields' : List (Text × Value)}
    (h : display (.mapping fields) ++ s = display (.mapping fields') ++ t) :
    moreFields fields ++ ']' :: s = moreFields fields' ++ ']' :: t := by
  cases fields with
  | nil =>
      cases fields' with
      | nil => simpa [display] using h
      | cons field fields' => simp [display, displayFields_cons, entry, Text.quoted] at h
  | cons field fields =>
      cases fields' with
      | nil => simp [display, displayFields_cons, entry, Text.quoted] at h
      | cons field' fields' =>
          simp only [display, List.cons_append, List.append_assoc, List.nil_append] at h
          have hinner := (List.cons.inj h).2
          rw [displayFields_cons, displayFields_cons] at hinner
          simpa [moreFields] using hinner

/-! ## The text tells the value -/

mutual

/-- The text of a value tells the value, and where it ends. -/
theorem display_append_inj : ∀ (v w : Value) {s t : Text}, v.Canonical → w.Canonical → Stops s →
    Stops t → display v ++ s = display w ++ t → v = w ∧ s = t
  | .null, _, _, _, hcv, hcw, hs, ht, h | .bool _, _, _, _, hcv, hcw, hs, ht, h
  | .integer _, _, _, _, hcv, hcw, hs, ht, h | .float _, _, _, _, hcv, hcw, hs, ht, h =>
      bare_append_inj hcv hcw hs ht h trivial
  | .string a, w, s, t, hcv, hcw, hs, ht, h => by
      cases w with
      | string b =>
          obtain ⟨rfl, hbehind⟩ := Text.quoted_append_inj h
          exact ⟨rfl, hbehind⟩
      | sequence items => simp [display, Text.quoted] at h
      | mapping fields => cases fields <;> simp [display, Text.quoted] at h
      | _ => exact (bare_append_inj hcw hcv ht hs h.symm trivial).imp Eq.symm Eq.symm
  | .sequence items, w, s, t, hcv, hcw, hs, ht, h => by
      cases w with
      | string b => simp [display, Text.quoted] at h
      | sequence items' =>
          obtain ⟨rfl, hbehind⟩ := moreItems_append_inj items items' hcv hcw (moreItems_of_display h)
          exact ⟨rfl, hbehind⟩
      | mapping fields => exact absurd h (sequence_ne_mapping items fields)
      | _ => exact (bare_append_inj hcw hcv ht hs h.symm trivial).imp Eq.symm Eq.symm
  | .mapping fields, w, s, t, hcv, hcw, hs, ht, h => by
      cases w with
      | string b => cases fields <;> simp [display, Text.quoted] at h
      | sequence items => exact absurd h.symm (sequence_ne_mapping items fields)
      | mapping fields' =>
          obtain ⟨rfl, hbehind⟩ :=
            moreFields_append_inj fields fields' hcv hcw (moreFields_of_display h)
          exact ⟨rfl, hbehind⟩
      | _ => exact (bare_append_inj hcw hcv ht hs h.symm trivial).imp Eq.symm Eq.symm

theorem moreItems_append_inj : ∀ (items items' : List Value) {s t : Text}, ItemsCanonical items →
    ItemsCanonical items' → moreItems items ++ ']' :: s = moreItems items' ++ ']' :: t →
    items = items' ∧ s = t
  | [], [], _, _, _, _, h => ⟨rfl, (List.cons.inj h).2⟩
  | [], w :: ws, _, _, _, _, h => by simp [moreItems] at h
  | v :: vs, [], _, _, _, _, h => by simp [moreItems] at h
  | v :: vs, w :: ws, s, t, hcv, hcw, h => by
      simp only [moreItems_cons, List.cons_append, List.append_assoc, List.cons.injEq, true_and] at h
      obtain ⟨rfl, hmore⟩ :=
        display_append_inj v w hcv.1 hcw.1 (stops_moreItems vs s) (stops_moreItems ws t) h
      obtain ⟨rfl, hbehind⟩ := moreItems_append_inj vs ws hcv.2 hcw.2 hmore
      exact ⟨rfl, hbehind⟩

theorem moreFields_append_inj : ∀ (fields fields' : List (Text × Value)) {s t : Text},
    FieldsCanonical fields → FieldsCanonical fields' →
    moreFields fields ++ ']' :: s = moreFields fields' ++ ']' :: t → fields = fields' ∧ s = t
  | [], [], _, _, _, _, h => ⟨rfl, (List.cons.inj h).2⟩
  | [], field :: fields', _, _, _, _, h => by simp [moreFields] at h
  | field :: fields, [], _, _, _, _, h => by simp [moreFields] at h
  | (k, v) :: fields, (l, w) :: fields', s, t, hcv, hcw, h => by
      simp only [moreFields_cons, entry, List.cons_append, List.append_assoc, List.cons.injEq,
        true_and] at h
      obtain ⟨rfl, hvalue⟩ := Text.quoted_append_inj h
      obtain ⟨rfl, hmore⟩ := display_append_inj v w hcv.1 hcw.1 (stops_moreFields fields s)
        (stops_moreFields fields' t) (List.cons.inj (List.cons.inj hvalue).2).2
      obtain ⟨rfl, hbehind⟩ := moreFields_append_inj fields fields' hcv.2 hcw.2 hmore
      exact ⟨rfl, hbehind⟩

end

theorem display_inj (hv : v.Canonical) (hw : w.Canonical) (h : display v = display w) : v = w := by
  have happend : display v ++ [] = display w ++ [] := by rw [h]
  exact (display_append_inj v w hv hw stops_nil stops_nil happend).1

/-! ## Expected values -/

/-- What an expected value is made from: nothing, a boolean, an integer of 64 bits, any double, a text, a
list of such, or JSON. -/
inductive Converted : Value → Prop
  | null : Converted .null
  | bool (b : Bool) : Converted (.bool b)
  | integer {i : Int} (hlow : minInteger ≤ i) (hhigh : i ≤ maxInteger) : Converted (.integer i)
  | double (d : Double) : Converted (ofDouble d)
  | string (s : Text) : Converted (.string s)
  | sequence {items : List Value} (h : ∀ v ∈ items, Converted v) : Converted (.sequence items)
  | json (j : Json) : Converted (ofJson j)

theorem itemsCanonical_of_forall {items : List Value} (h : ∀ v ∈ items, v.Canonical) :
    ItemsCanonical items := by
  induction items with
  | nil => trivial
  | cons v vs ih =>
      rw [List.forall_mem_cons] at h
      exact ⟨h.1, ih h.2⟩

theorem Converted.canonical (h : v.Converted) : v.Canonical := by
  induction h with
  | null | bool | string => trivial
  | integer hlow hhigh => exact ⟨hlow, hhigh⟩
  | double d => exact canonical_ofDouble d
  | sequence _ ih => exact itemsCanonical_of_forall ih
  | json j => exact canonical_ofJson j

theorem Converted.display_ne {expected : Value} (h : expected.Converted) {j : Json} (hj : j.WellFormed)
    (hne : ¬ (ofJson j).equals expected) : expected.display ≠ (ofJson j).display := by
  intro hsame
  have heq := display_inj h.canonical (canonical_ofJson j) hsame
  rw [heq] at hne
  exact hne (equals_self (wellFormed_toJson hj))

end Crosscheck.Value
