import Crosscheck.Engine.Sum
import Crosscheck.Proofs.Text.Pieces
import Mathlib.Algebra.Ring.Int.Defs
/-!
# Written sums

A sum is written as integers and strings with plus signs between them and blanks around both. It is worked
out exactly or not at all: integers are added from left to right as long as 64 bits hold what comes out,
strings are joined, and nothing else has a value, nor has a sum with a part missing.
-/

namespace Crosscheck.Sum

variable {c : Char} {s u after inner : Text} {operandNext any : Bool} {bound bound' : Nat} {d : Defect}

/-! ## Reading without a bound -/

theorem length_readString (h : readString s = some (inner, after)) : after.length < s.length := by
  induction s using readString.induct generalizing inner with
  | case1 => cases h
  | case2 rest =>
      cases h
      exact Nat.lt_succ_self _
  | case3 c s ih =>
      simp only [readString, Option.map_eq_some_iff] at h
      obtain ⟨⟨inner', after'⟩, hread, heq⟩ := h
      cases heq
      have hless := ih hread
      simp only [List.length_cons] at hless ⊢
      omega
  | case4 c s _ _ ih =>
      rw [readString] at h
      · obtain ⟨⟨inner', after'⟩, hread, heq⟩ := Option.map_eq_some_iff.mp h
        cases heq
        exact Nat.lt_succ_of_lt (ih hread)
      all_goals assumption

/-- Any bound that is greater than the length of the text will do. -/
theorem literals_congr (h : s.length < bound) (h' : s.length < bound') :
    literals bound operandNext any s = literals bound' operandNext any s := by
  induction bound generalizing bound' operandNext any s with
  | zero => omega
  | succ bound ih =>
      obtain ⟨bound', rfl⟩ : ∃ n, bound' = n + 1 := ⟨bound' - 1, by omega⟩
      cases s with
      | nil => rfl
      | cons c s =>
          rw [List.length_cons] at h h'
          have hsame {next any : Bool} {t : Text} (ht : t.length ≤ s.length) :
              literals bound next any t = literals bound' next any t := ih (by omega) (by omega)
          have hnumber : (numberText c s).2.length ≤ s.length := (List.dropWhile_sublist _).length_le
          simp only [literals]
          rw [hsame (Nat.le_refl _), hsame (Nat.le_refl _), hsame hnumber]
          cases hread : readString s with
          | none => rfl
          | some pair => simp only [hsame (Nat.le_of_lt (length_readString hread))]

/-- The literals of a text, or what is wrong with it. -/
def read (operandNext any : Bool) (s : Text) : Except Defect (List Literal) :=
  literals (s.length + 1) operandNext any s

theorem read_eq (h : s.length < bound) : literals bound operandNext any s = read operandNext any s :=
  literals_congr h (Nat.lt_succ_self _)

theorem read_nil : read operandNext any [] = if operandNext && any then .error .dangling else .ok [] := rfl

/-- What is read from a character on. -/
theorem read_cons (operandNext any : Bool) (c : Char) (s : Text) : read operandNext any (c :: s) =
    if Text.isBlank c then read operandNext any s
    else if !operandNext then if c = '+' then read true any s else .error (.unexpected c)
    else if c = '"' then
      match readString s with
      | none => .error .unterminated
      | some (inner, after) => (read false true after).map (.string inner :: ·)
    else if startsNumber c then
      match number? (numberText c s).1 with
      | none => .error (.badNumber (numberText c s).1)
      | some l => (read false true (numberText c s).2).map (l :: ·)
    else .error (.unresolved c) := by
  have hnumber : (numberText c s).2.length ≤ s.length := (List.dropWhile_sublist _).length_le
  rw [read, literals, List.length_cons]
  simp only [read_eq (Nat.lt_succ_self s.length), read_eq (Nat.lt_succ_of_le hnumber)]
  cases hread : readString s with
  | none => rfl
  | some pair =>
      have hafter : literals (s.length + 1) false true pair.2 = read false true pair.2 :=
        read_eq (Nat.lt_succ_of_lt (length_readString hread))
      cases number? (numberText c s).1 <;> simp only [hafter]

theorem read_blank (hc : Text.isBlank c) : read operandNext any (c :: s) = read operandNext any s := by
  rw [read_cons, if_pos hc]

theorem read_blanks (hu : Text.isBlankText u) : read operandNext any (u ++ s) = read operandNext any s := by
  induction u with
  | nil => rfl
  | cons c u ih =>
      rw [Text.isBlankText, List.all_cons, Bool.and_eq_true] at hu
      rw [List.cons_append, read_blank hu.1, ih hu.2]

theorem read_plus : read false any ('+' :: s) = read true any s := by
  rw [read_cons, if_neg (by decide), if_pos (by decide), if_pos rfl]

theorem read_unexpected (hblank : ¬ Text.isBlank c) (hplus : c ≠ '+') :
    read false any (c :: s) = .error (.unexpected c) := by
  rw [read_cons, if_neg hblank, if_pos (by decide), if_neg hplus]

theorem read_string (h : readString s = some (inner, after)) :
    read true any ('"' :: s) = (read false true after).map (.string inner :: ·) := by
  rw [read_cons, if_neg (by decide), if_neg (by decide), if_pos rfl, h]

theorem read_unterminated (h : readString s = none) : read true any ('"' :: s) = .error .unterminated := by
  rw [read_cons, if_neg (by decide), if_neg (by decide), if_pos rfl, h]

/-! ## Operands -/

/-- A text with a backslash before each of its quotes and backslashes. -/
def escape (s : Text) : Text := s.flatMap fun c => if c = '"' ∨ c = '\\' then ['\\', c] else [c]

theorem readString_plain (hquote : c ≠ '"') (hslash : c ≠ '\\') (s : Text) :
    readString (c :: s) = (readString s).map fun (inner, after) => (c :: inner, after) := by
  rw [readString]
  · exact hquote
  · rintro _ _ rfl
    exact absurd rfl hslash

theorem readString_escape_append (s t : Text) :
    readString (escape s ++ t) = (readString t).map fun (inner, after) => (s ++ inner, after) := by
  induction s with
  | nil => cases hread : readString t <;> simp [escape, hread]
  | cons c s ih =>
      rw [escape, List.flatMap_cons, List.append_assoc, ← escape]
      have hmap : ((readString (escape s ++ t)).map fun (inner, after) => (c :: inner, after)) =
          (readString t).map fun (inner, after) => (c :: s ++ inner, after) := by
        rw [ih, Option.map_map]
        rfl
      by_cases hc : c = '"' ∨ c = '\\'
      · rw [if_pos hc]
        exact hmap
      · rw [if_neg hc, List.singleton_append, readString_plain (fun h => hc (.inl h)) (fun h => hc (.inr h))]
        exact hmap

/-- The content of a string is read as it was. -/
theorem readString_escape (s after : Text) : readString (escape s ++ '"' :: after) = some (s, after) := by
  simp [readString_escape_append, readString]

theorem readString_eq_none (h : '"' ∉ s) : readString s = none := by
  induction s using readString.induct with
  | case1 => rfl
  | case2 => exact absurd List.mem_cons_self h
  | case3 c s ih =>
      rw [readString, ih fun hmem => h (.tail _ (.tail _ hmem))]
      rfl
  | case4 c s _ _ ih =>
      rw [readString, ih fun hmem => h (.tail _ hmem)]
      · rfl
      all_goals assumption

/-- A string whose closing quote is missing does not end. -/
theorem readString_escape_open (s : Text) (h : '"' ∉ after) : readString (escape s ++ after) = none := by
  rw [readString_escape_append, readString_eq_none h, Option.map_none]

theorem not_isNumberChar_of_isBlank (h : Text.isBlank c) : isNumberChar c = false := by
  have hpoint : c ≠ '.' := by
    rintro rfl
    cases h
  simp only [Text.isBlank, Bool.or_eq_true, Bool.and_eq_true, decide_eq_true_eq, beq_iff_eq] at h
  simp [isNumberChar, Text.isAsciiDigit, hpoint]
  omega

theorem not_isBlank_of_startsNumber (h : startsNumber c) : ¬ Text.isBlank c := by
  intro hblank
  rw [startsNumber, not_isNumberChar_of_isBlank hblank, Bool.false_or, beq_iff_eq] at h
  subst h
  cases hblank

/-- Integers that 64 bits hold. -/
def Fits (i : Int) : Prop := Value.minInteger ≤ i ∧ i ≤ Value.maxInteger

instance (i : Int) : Decidable (Fits i) :=
  inferInstanceAs (Decidable (Value.minInteger ≤ i ∧ i ≤ Value.maxInteger))

/-- An integer as it is written, in digits with a minus or without. -/
structure Numeral where
  negative : Bool
  digits : Text
  filled : digits ≠ []
  decimal : ∀ c ∈ digits, Text.isAsciiDigit c
  fits : Fits (if negative then -(Text.natOfDigits digits : Int) else Text.natOfDigits digits)

namespace Numeral

def text (n : Numeral) : Text := if n.negative then '-' :: n.digits else n.digits

def value (n : Numeral) : Int :=
  if n.negative then -(Text.natOfDigits n.digits : Int) else Text.natOfDigits n.digits

theorem signed_text (n : Numeral) : signed n.text = (n.negative, n.digits) := by
  rw [text]
  cases hsign : n.negative with
  | true => rfl
  | false =>
      obtain ⟨d, ds, hdigits⟩ := List.exists_cons_of_ne_nil n.filled
      have hd : d ≠ '-' := by
        rintro rfl
        exact absurd (n.decimal '-' (hdigits ▸ List.mem_cons_self)) (by decide)
      simp [hdigits, signed, hd]

theorem number?_text (n : Numeral) : number? n.text = some (.integer n.value) := by
  have hpoint : '.' ∉ n.text := by
    have hdigits : '.' ∉ n.digits := fun hmem => absurd (n.decimal '.' hmem) (by decide)
    rw [text]
    split <;> simp [hdigits]
  have hall : n.digits.all Text.isAsciiDigit := List.all_eq_true.mpr n.decimal
  have hfilled : n.digits.isEmpty = false := List.isEmpty_eq_false_iff.mpr n.filled
  have hinteger : integer? n.text = some n.value := by
    simp only [integer?, n.signed_text, hfilled, hall, Bool.not_true, Bool.or_self, Bool.false_eq_true, if_false]
    exact if_pos n.fits
  simp [number?, hpoint, hinteger]

/-- It goes on with digits. -/
theorem text_eq_cons (n : Numeral) : ∃ c ds, n.text = c :: ds ∧ startsNumber c ∧
    ∀ d ∈ ds, Text.isAsciiDigit d := by
  rw [text]
  cases n.negative with
  | true => exact ⟨'-', n.digits, rfl, rfl, n.decimal⟩
  | false =>
      obtain ⟨c, ds, hdigits⟩ := List.exists_cons_of_ne_nil n.filled
      have hdecimal := n.decimal
      rw [hdigits, List.forall_mem_cons] at hdecimal
      exact ⟨c, ds, hdigits, by simp [startsNumber, isNumberChar, hdecimal.1], hdecimal.2⟩

end Numeral

/-- A literal as it is written. -/
inductive Operand
  | integer (n : Numeral)
  | string (s : Text)

namespace Operand

def text : Operand → Text
  | .integer n => n.text
  | .string s => '"' :: (escape s ++ ['"'])

def literal : Operand → Literal
  | .integer n => .integer n.value
  | .string s => .string s

/-- It starts with a character that is neither a blank nor a plus sign. -/
theorem text_eq_cons (o : Operand) : ∃ c s, o.text = c :: s ∧ ¬ Text.isBlank c ∧ c ≠ '+' := by
  cases o with
  | string s => exact ⟨'"', _, rfl, by decide, by decide⟩
  | integer n =>
      obtain ⟨c, ds, htext, hc, -⟩ := n.text_eq_cons
      refine ⟨c, ds, htext, not_isBlank_of_startsNumber hc, ?_⟩
      rintro rfl
      cases hc

end Operand

/-- No number goes on into the text. -/
def EndsNumber (s : Text) : Prop := ∀ c ∈ s.head?, isNumberChar c = false

theorem read_number (n : Numeral) (hs : EndsNumber s) :
    read true any (n.text ++ s) = (read false true s).map (.integer n.value :: ·) := by
  obtain ⟨c, ds, htext, hc, hds⟩ := n.text_eq_cons
  have hquote : c ≠ '"' := by
    rintro rfl
    cases hc
  have hnumber : numberText c (ds ++ s) = (n.text, s) := by
    have hall : ∀ d ∈ ds, isNumberChar d := fun d hd => by simp [isNumberChar, hds d hd]
    rw [numberText, List.takeWhile_append_of_pos hall, List.dropWhile_append_of_pos hall, htext]
    cases s with
    | nil => simp
    | cons d s => simp [hs d rfl]
  rw [htext, List.cons_append, read_cons, if_neg (not_isBlank_of_startsNumber hc), if_neg (by decide),
    if_neg hquote, if_pos hc, hnumber, n.number?_text]

theorem read_operand (o : Operand) (hs : EndsNumber s) :
    read true any (o.text ++ s) = (read false true s).map (o.literal :: ·) := by
  cases o with
  | integer n => exact read_number n hs
  | string t =>
      have hread : readString (escape t ++ ['"'] ++ s) = some (t, s) := by
        rw [List.append_assoc]
        exact readString_escape t s
      exact read_string hread

/-! ## Sums -/

/-- An operand with blanks around it. -/
structure Term where
  before : Text
  operand : Operand
  after : Text
  before_blank : Text.isBlankText before
  after_blank : Text.isBlankText after

namespace Term

def text (t : Term) : Text := t.before ++ (t.operand.text ++ t.after)

def literal (t : Term) : Literal := t.operand.literal

end Term

/-- Terms with a plus sign between any two of them. -/
def text (ts : List Term) : Text := Text.join ['+'] (ts.map Term.text)

/-- Terms with a plus sign after each. -/
def lead (ts : List Term) : Text := ts.flatMap fun t => t.text ++ ['+']

variable {t : Term} {ts us vs : List Term} {first : Literal} {rest : List Literal}

theorem text_append (us : List Term) (hvs : vs ≠ []) : text (us ++ vs) = lead us ++ text vs := by
  induction us with
  | nil => rfl
  | cons u us ih =>
      obtain ⟨v, ws, hws⟩ := List.exists_cons_of_ne_nil (List.append_ne_nil_of_right_ne_nil us hvs)
      rw [List.cons_append, lead, List.flatMap_cons, ← lead, List.append_assoc, ← ih, hws]
      rfl

theorem text_append_singleton (ts : List Term) (t : Term) : text (ts ++ [t]) = lead ts ++ t.text :=
  text_append ts (List.cons_ne_nil t [])

theorem EndsNumber.blanks (hu : Text.isBlankText u) (hs : EndsNumber s ∨ u ≠ []) : EndsNumber (u ++ s) := by
  cases u with
  | nil => exact hs.resolve_right fun h => h rfl
  | cons c u =>
      rintro _ ⟨⟩
      rw [Text.isBlankText, List.all_cons, Bool.and_eq_true] at hu
      exact not_isNumberChar_of_isBlank hu.1

theorem endsNumber_nil : EndsNumber [] := nofun

theorem endsNumber_plus (s : Text) : EndsNumber ('+' :: s) := by
  rintro _ ⟨⟩
  rfl

theorem read_term (t : Term) (hs : EndsNumber s) :
    read true any (t.text ++ s) = (read false true s).map (t.literal :: ·) := by
  rw [Term.text, List.append_assoc, read_blanks t.before_blank, List.append_assoc,
    read_operand _ (.blanks t.after_blank (.inl hs)), read_blanks t.after_blank]
  rfl

/-- The terms of a sum are read one after the other. -/
theorem read_lead (ts : List Term) (s : Text) :
    read true any (lead ts ++ s) = (read true (any || !ts.isEmpty) s).map (ts.map Term.literal ++ ·) := by
  induction ts generalizing any with
  | nil => cases hread : read true any s <;> simp [lead, hread, Except.map]
  | cons t ts ih =>
      have hlead : lead (t :: ts) ++ s = t.text ++ '+' :: (lead ts ++ s) := by simp [lead]
      rw [hlead, read_term t (endsNumber_plus _), read_plus, ih]
      simp only [Bool.true_or, List.isEmpty_cons, Bool.not_false, Bool.or_true]
      cases read true true s <;> rfl

theorem read_text (hts : ts ≠ []) (hs : EndsNumber s) :
    read true any (text ts ++ s) = (read false true s).map (ts.map Term.literal ++ ·) := by
  obtain ⟨us, t, rfl⟩ := (List.eq_nil_or_concat' ts).resolve_left hts
  rw [text_append_singleton, List.append_assoc, read_lead, read_term t hs]
  cases read false true s <;> simp [Except.map]

/-! ## The value -/

/-- None of the words that have a value is the start of a sum. -/
theorem not_word (h : ∀ c, read true false s ≠ .error (.unresolved c)) :
    s ≠ "true" ∧ s ≠ "false" ∧ s ≠ "null" ∧ s ≠ "nil" := by
  refine ⟨?_, ?_, ?_, ?_⟩ <;> rintro rfl <;> exact h _ rfl

theorem evaluate_of_error (h : read true false s = .error d) (hd : ∀ c, d ≠ .unresolved c) :
    evaluate s = .error d := by
  obtain ⟨htrue, hfalse, hnull, hnil⟩ := not_word (s := s) fun c hc => hd c (by rw [h] at hc; cases hc; rfl)
  rw [evaluate, if_neg htrue, if_neg hfalse, if_neg (not_or.mpr ⟨hnull, hnil⟩),
    read_eq (Nat.lt_succ_self _), h]

theorem evaluate_of_ok (h : read true false s = .ok (first :: rest)) :
    evaluate s = (rest.foldlM add first).map Literal.toJson := by
  obtain ⟨htrue, hfalse, hnull, hnil⟩ := not_word (s := s) fun c hc => by rw [h] at hc; cases hc
  rw [evaluate, if_neg htrue, if_neg hfalse, if_neg (not_or.mpr ⟨hnull, hnil⟩),
    read_eq (Nat.lt_succ_self _), h]

theorem evaluate_text (ts : List Term) (t : Term) : evaluate (text (t :: ts)) =
    ((ts.map Term.literal).foldlM add t.literal).map Literal.toJson := by
  have hread : read true false (text (t :: ts) ++ []) = _ := read_text (List.cons_ne_nil t ts) endsNumber_nil
  rw [List.append_nil] at hread
  exact evaluate_of_ok (by simp [hread, read_nil, Except.map])

theorem add_integers {i j : Int} (h : Fits (i + j)) : add (.integer i) (.integer j) = .ok (.integer (i + j)) :=
  if_pos h

theorem add_integers_overflow {i j : Int} (h : ¬ Fits (i + j)) :
    add (.integer i) (.integer j) = .error .overflow :=
  if_neg h

/-- Integers are added exactly if every sum on the way fits. -/
theorem foldlM_integers {i : Int} {is : List Int} (h : ∀ n, Fits (i + (is.take n).sum)) :
    (is.map Literal.integer).foldlM add (.integer i) = .ok (.integer (i + is.sum)) := by
  induction is generalizing i with
  | nil => simp [pure, Except.pure]
  | cons j is ih =>
      have hfirst : Fits (i + j) := by simpa using h 1
      rw [List.map_cons, List.foldlM_cons, add_integers hfirst, List.sum_cons, ← Int.add_assoc]
      exact ih fun n => by simpa [Int.add_assoc] using h (n + 1)

theorem foldlM_integers_overflow {i : Int} {is : List Int} (hi : Fits i)
    (h : ∃ n, ¬ Fits (i + (is.take n).sum)) :
    (is.map Literal.integer).foldlM add (.integer i) = .error .overflow := by
  obtain ⟨n, hn⟩ := h
  induction is generalizing i n with
  | nil => simp [hi] at hn
  | cons j is ih =>
      rw [List.map_cons, List.foldlM_cons]
      by_cases hfirst : Fits (i + j)
      · rw [add_integers hfirst]
        cases n with
        | zero => simp [hi] at hn
        | succ n => exact ih hfirst n (by simpa [Int.add_assoc] using hn)
      · rw [add_integers_overflow hfirst]
        rfl

theorem foldlM_strings (s : Text) (ss : List Text) :
    (ss.map Literal.string).foldlM add (.string s) = .ok (.string (s ++ ss.flatten)) := by
  induction ss generalizing s with
  | nil => simp [pure, Except.pure]
  | cons u ss ih =>
      rw [List.map_cons, List.foldlM_cons, List.flatten_cons, ← List.append_assoc]
      exact ih (s ++ u)

/-- Integers and strings in one sum do not add up. -/
theorem foldlM_mixed {ls : List Literal} (hplain : ∀ l ∈ first :: ls, ∀ x, l ≠ .double x)
    (hinteger : ∃ i, .integer i ∈ first :: ls) (hstring : ∃ s, .string s ∈ first :: ls) :
    ∃ d, ls.foldlM add first = .error d ∧ (d = .mixed ∨ d = .overflow) := by
  induction ls generalizing first with
  | nil =>
      obtain ⟨i, hi⟩ := hinteger
      obtain ⟨s, hs⟩ := hstring
      rw [List.mem_singleton] at hi hs
      rw [← hi] at hs
      cases hs
  | cons l ls ih =>
      rw [List.foldlM_cons]
      cases first with
      | double x => exact absurd rfl (hplain _ List.mem_cons_self x)
      | integer i =>
          cases l with
          | double x => exact absurd rfl (hplain _ (.tail _ List.mem_cons_self) x)
          | string s => exact ⟨.mixed, rfl, .inl rfl⟩
          | integer j =>
              by_cases hfits : Fits (i + j)
              · rw [add_integers hfits]
                refine ih ?_ ⟨_, List.mem_cons_self⟩ (by simpa using hstring)
                simpa using hplain
              · exact ⟨.overflow, by rw [add_integers_overflow hfits]; rfl, .inr rfl⟩
      | string s =>
          cases l with
          | double x => exact absurd rfl (hplain _ (.tail _ List.mem_cons_self) x)
          | integer i => exact ⟨.mixed, rfl, .inl rfl⟩
          | string u =>
              refine ih ?_ (by simpa using hinteger) ⟨_, List.mem_cons_self⟩
              simpa using hplain

/-! ## The last quote -/

theorem quote_not_mem_blanks (h : Text.isBlankText u) : '"' ∉ u := fun hmem =>
  absurd (List.all_eq_true.mp h _ hmem) (by decide)

theorem quote_not_mem_numeral (n : Numeral) : '"' ∉ n.text := by
  have hdigits : '"' ∉ n.digits := fun hmem => absurd (n.decimal _ hmem) (by decide)
  rw [Numeral.text]
  split <;> simp [hdigits]

/-- Only strings have quotes. -/
theorem quote_not_mem_integers (h : ∀ t ∈ ts, ∃ n, t.operand = .integer n) :
    '"' ∉ ts.flatMap fun t => '+' :: t.text := by
  rw [List.mem_flatMap]
  rintro ⟨t, ht, hmem⟩
  obtain ⟨n, hn⟩ := h t ht
  have hnumber : '"' ∉ t.operand.text := by
    rw [hn]
    exact quote_not_mem_numeral n
  simp [Term.text, hnumber, quote_not_mem_blanks t.before_blank, quote_not_mem_blanks t.after_blank] at hmem

theorem integers_or_last_string (ts : List Term) : (∀ t ∈ ts, ∃ n, t.operand = .integer n) ∨
    ∃ us t content vs, ts = us ++ t :: vs ∧ t.operand = .string content ∧
      ∀ v ∈ vs, ∃ n, v.operand = .integer n := by
  induction ts with
  | nil => exact .inl (by simp)
  | cons t ts ih =>
      rcases ih with hintegers | ⟨us, u, content, vs, rfl, hu, hvs⟩
      · cases ht : t.operand with
        | integer n => exact .inl (List.forall_mem_cons.mpr ⟨⟨n, ht⟩, hintegers⟩)
        | string content => exact .inr ⟨[], t, content, ts, rfl, ht, hintegers⟩
      · exact .inr ⟨t :: us, u, content, vs, rfl, hu, hvs⟩

theorem text_cons (t : Term) (ts : List Term) :
    text (t :: ts) = t.text ++ ts.flatMap fun t => '+' :: t.text := by
  induction ts generalizing t with
  | nil => simp [text, Text.join]
  | cons u ts ih =>
      have hjoin : text (t :: u :: ts) = t.text ++ ['+'] ++ text (u :: ts) := rfl
      rw [hjoin, ih, List.flatMap_cons, List.append_assoc]
      rfl

/-- The last quote of a sum closes a string, and nothing is closed without it. -/
theorem read_unclosed {front : Text} (htext : text ts = front ++ '"' :: after) (hlast : '"' ∉ after) :
    read true false (front ++ after) = .error .unterminated := by
  rcases integers_or_last_string ts with hintegers | ⟨us, t, content, vs, rfl, ht, hvs⟩
  · exfalso
    cases ts with
    | nil => cases front <;> cases htext
    | cons t ts =>
        have hmem : '"' ∈ '+' :: text (t :: ts) := by simp [htext]
        rw [text_cons, ← List.cons_append, ← List.flatMap_cons (f := fun t : Term => '+' :: t.text)] at hmem
        exact quote_not_mem_integers hintegers hmem
  · have hwritten : text (us ++ t :: vs) = lead us ++ (t.before ++ '"' :: escape content) ++
        '"' :: (t.after ++ vs.flatMap fun t => '+' :: t.text) := by
      rw [text_append us (List.cons_ne_nil _ _), text_cons, Term.text, ht]
      simp [Operand.text]
    have hbehind : '"' ∉ t.after ++ vs.flatMap fun t => '+' :: t.text :=
      List.not_mem_append (quote_not_mem_blanks t.after_blank) (quote_not_mem_integers hvs)
    obtain ⟨rfl, rfl⟩ := Text.cut_last hlast hbehind (htext.symm.trans hwritten)
    rw [List.append_assoc, read_lead, List.append_assoc, read_blanks t.before_blank, List.cons_append,
      read_unterminated (readString_escape_open content hbehind)]
    rfl

/-! ## What sums come to -/

/-- The value of an expression, or a message that says why there is none. -/
def answer (expression : Text) : Except Text Json :=
  (evaluate expression).mapError (Defect.message expression)

theorem answer_of_error (h : evaluate s = .error d) : answer s = .error (d.message s) := by
  rw [answer, h]
  rfl

theorem answer_of_ok {j : Json} (h : evaluate s = .ok j) : answer s = .ok j := by
  rw [answer, h]
  rfl

theorem evaluate_integers {values : List Int} (hts : ts ≠ []) (h : ts.map Term.literal = values.map .integer) :
    ((∀ n, Fits (values.take n).sum) → evaluate (text ts) = .ok (.number (.integer values.sum))) ∧
      ((∃ n, ¬ Fits (values.take n).sum) → evaluate (text ts) = .error .overflow) := by
  obtain ⟨t, ts, rfl⟩ := List.exists_cons_of_ne_nil hts
  obtain ⟨i, is, rfl⟩ : ∃ i is, values = i :: is := by
    cases values with
    | nil => cases h
    | cons i is => exact ⟨i, is, rfl⟩
  obtain ⟨ht, hrest⟩ := List.cons.inj h
  have hi : Fits i := by
    have hliteral : t.operand.literal = .integer i := ht
    cases hoperand : t.operand with
    | string content =>
        rw [hoperand] at hliteral
        cases hliteral
    | integer n =>
        rw [hoperand] at hliteral
        cases hliteral
        exact n.fits
  rw [evaluate_text, hrest, ht]
  constructor
  · intro hfits
    rw [foldlM_integers fun n => by simpa using hfits (n + 1)]
    rfl
  · rintro ⟨n, hn⟩
    cases n with
    | zero =>
        have hzero : Fits 0 := by decide
        exact absurd hzero hn
    | succ n =>
        rw [foldlM_integers_overflow hi ⟨n, by simpa using hn⟩]
        rfl

theorem evaluate_strings {contents : List Text} (hts : ts ≠ [])
    (h : ts.map Term.literal = contents.map .string) :
    evaluate (text ts) = .ok (.string contents.flatten) := by
  obtain ⟨t, ts, rfl⟩ := List.exists_cons_of_ne_nil hts
  cases contents with
  | nil => cases h
  | cons content contents =>
      obtain ⟨ht, hrest⟩ := List.cons.inj h
      rw [evaluate_text, hrest, ht, foldlM_strings]
      rfl

theorem literal_ne_double (t : Term) (x : Double) : t.literal ≠ .double x := by
  rw [Term.literal]
  cases t.operand <;> exact nofun

theorem evaluate_mixed (hinteger : ∃ i, .integer i ∈ ts.map Term.literal)
    (hstring : ∃ s, .string s ∈ ts.map Term.literal) :
    ∃ d, evaluate (text ts) = .error d ∧ (d = .mixed ∨ d = .overflow) := by
  cases ts with
  | nil => simp at hinteger
  | cons t ts =>
      have hplain : ∀ l ∈ (t :: ts).map Term.literal, ∀ x, l ≠ .double x := by
        rw [List.forall_mem_map]
        exact fun u _ => literal_ne_double u
      obtain ⟨d, hfold, hd⟩ := foldlM_mixed hplain hinteger hstring
      refine ⟨d, ?_, hd⟩
      rw [evaluate_text, hfold]
      rfl

/-- A plus sign wants an operand behind it. -/
theorem evaluate_dangling (hts : ts ≠ []) (hu : Text.isBlankText u) :
    evaluate (text ts ++ '+' :: u) = .error .dangling := by
  have hblank : read true true (u ++ []) = .error .dangling := read_blanks hu
  rw [List.append_nil] at hblank
  refine evaluate_of_error ?_ nofun
  rw [read_text hts (endsNumber_plus u), read_plus, hblank]
  rfl

/-- Operands want a plus sign between them. -/
theorem evaluate_unexpected (hts : ts ≠ []) (hus : us ≠ []) (hu : Text.isBlankText u) (hne : u ≠ []) :
    ∃ c, evaluate (text ts ++ (u ++ text us)) = .error (.unexpected c) := by
  obtain ⟨v, vs, rfl⟩ := List.exists_cons_of_ne_nil hus
  obtain ⟨c, tail, htail, hblank, hplus⟩ := v.operand.text_eq_cons
  refine ⟨c, evaluate_of_error ?_ nofun⟩
  rw [read_text hts (.blanks hu (.inr hne)), read_blanks hu, text_cons, Term.text, List.append_assoc,
    read_blanks v.before_blank, htail, List.cons_append, List.cons_append, read_unexpected hblank hplus]
  rfl

/-- A sum of integers comes to their sum if every sum on the way fits in 64 bits, and overflows otherwise. A
sum of strings comes to the strings one after the other. A sum of both comes to nothing, nor does a sum that
ends in a plus sign, goes on without one, or lacks the last quote. -/
theorem answer_text (ts : List Term) (hts : ts ≠ []) :
    (∀ values : List Int, ts.map Term.literal = values.map .integer →
      ((∀ n, Fits (values.take n).sum) → answer (text ts) = .ok (.number (.integer values.sum))) ∧
      ((∃ n, ¬ Fits (values.take n).sum) → answer (text ts) = .error "integer overflow")) ∧
    (∀ contents : List Text, ts.map Term.literal = contents.map .string →
      answer (text ts) = .ok (.string contents.flatten)) ∧
    ((∃ i, .integer i ∈ ts.map Term.literal) → (∃ s, .string s ∈ ts.map Term.literal) →
      ∃ message, answer (text ts) = .error message) ∧
    (∀ blanks, Text.isBlankText blanks → ∃ message, answer (text ts ++ '+' :: blanks) = .error message) ∧
    (∀ blanks us, Text.isBlankText blanks → blanks ≠ [] → us ≠ [] →
      ∃ message, answer (text ts ++ (blanks ++ text us)) = .error message) ∧
    ∀ front after, text ts = front ++ '"' :: after → '"' ∉ after →
      ∃ message, answer (front ++ after) = .error message := by
  refine ⟨fun values hvalues => ?_, fun contents hcontents => ?_, fun hinteger hstring => ?_,
    fun blanks hblank => ?_, fun blanks us hblank hne hus => ?_, fun front after htext hlast => ?_⟩
  · obtain ⟨hexact, hoverflow⟩ := evaluate_integers hts hvalues
    exact ⟨fun h => answer_of_ok (hexact h), fun h => answer_of_error (hoverflow h)⟩
  · exact answer_of_ok (evaluate_strings hts hcontents)
  · obtain ⟨d, hd, -⟩ := evaluate_mixed hinteger hstring
    exact ⟨_, answer_of_error hd⟩
  · exact ⟨_, answer_of_error (evaluate_dangling hts hblank)⟩
  · obtain ⟨c, hc⟩ := evaluate_unexpected hts hus hblank hne
    exact ⟨_, answer_of_error hc⟩
  · exact ⟨_, answer_of_error (evaluate_of_error (read_unclosed htext hlast) nofun)⟩

private def spaced (o : Operand) : Term := ⟨" ", o, "\n", rfl, rfl⟩

private def numeral (negative : Bool) (digits : Text) (hfilled : digits ≠ [])
    (hdecimal : digits.all Text.isAsciiDigit)
    (hfits : Fits (if negative then -(Text.natOfDigits digits : Int) else Text.natOfDigits digits)) : Term :=
  spaced (.integer ⟨negative, digits, hfilled, List.all_eq_true.mp hdecimal, hfits⟩)

/-- The largest integer of 64 bits, and then down and up again. -/
private def largest : List Term := [
  numeral false "9223372036854775807" (by decide) (by decide +kernel) (by decide +kernel),
  numeral true "1" (by decide) (by decide +kernel) (by decide +kernel),
  numeral false "01" (by decide) (by decide +kernel) (by decide +kernel)]

private def quoted : List Term := [spaced (.string "a\""), spaced (.string "+\\")]

theorem answer_text_largest : largest ≠ [] ∧ quoted ≠ [] ∧
    answer " 9223372036854775807\n+ -1\n+ 01\n" = .ok (.number (.integer 9223372036854775807)) ∧
    answer " \"a\\\"\"\n+ \"+\\\\\"\n" = .ok (.string "a\"+\\") := by
  obtain ⟨hintegers, -⟩ := answer_text largest (by decide)
  obtain ⟨-, hstrings, -⟩ := answer_text quoted (by decide)
  refine ⟨by decide, by decide, ?_, ?_⟩
  · refine (hintegers [9223372036854775807, -1, 1] rfl).1 fun n => ?_
    match n with
    | 0 | 1 | 2 => decide
    | n + 3 =>
        simp only [List.take_succ_cons, List.take_nil]
        decide
  · exact hstrings ["a\"", "+\\"] rfl

end Crosscheck.Sum
