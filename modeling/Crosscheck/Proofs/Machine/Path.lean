import Crosscheck.Machine.Path
import Crosscheck.Proofs.Text.Order
import Crosscheck.Proofs.Text.Pieces
import Crosscheck.Text.Utf8
/-!
# The parts of a path

The components of a path are told piece by piece between its slashes. A name joined to a path is one more
component, and the order of paths is that of their components.
-/

namespace Crosscheck.Path

variable {p q s name stem ext : Text}

/-! ## Names -/

/-- A name that a directory can list. -/
structure IsName (name : Text) : Prop where
  ne_nil : name ≠ []
  ne_dot : name ≠ ['.']
  ne_dots : name ≠ ['.', '.']
  not_slash : '/' ∉ name
  not_zero : '\x00' ∉ name
  short : (Utf8.encode name).length ≤ 255

theorem isName_iff : IsName name ↔ name ≠ [] ∧ name ≠ ['.'] ∧ name ≠ ['.', '.'] ∧ '/' ∉ name ∧
    '\x00' ∉ name ∧ (Utf8.encode name).length ≤ 255 :=
  ⟨fun h => ⟨h.1, h.2, h.3, h.4, h.5, h.6⟩, fun ⟨h₁, h₂, h₃, h₄, h₅, h₆⟩ => ⟨h₁, h₂, h₃, h₄, h₅, h₆⟩⟩

instance (name : Text) : Decidable (IsName name) := decidable_of_iff' _ isName_iff

namespace IsName

theorem of? (h : IsName name) (first : Bool) : Component.of? first name = some (.name name) := by
  simp [Component.of?, h.ne_nil, h.ne_dot, h.ne_dots]

theorem head?_ne (h : IsName name) : name.head? ≠ some '/' := fun hhead =>
  h.not_slash (List.mem_of_mem_head? hhead)

end IsName

/-! ## Pieces and marks -/

/-- The pieces between slashes. -/
abbrev pieces (p : Text) : List Text := Text.splitWhen (· = '/') p

theorem pieces_of_not_mem (h : '/' ∉ s) : pieces s = [s] :=
  Text.splitWhen_of_forall_not fun c hc => by
    rintro hslash
    rw [decide_eq_true_eq] at hslash
    exact h (hslash ▸ hc)

theorem pieces_append_slash (p s : Text) : pieces (p ++ '/' :: s) = pieces p ++ pieces s :=
  Text.splitWhen_append_sep (by simp) p s

/-- A path is without slashes or ends with a slash and a text that has none. -/
theorem exists_last_slash (p : Text) : '/' ∉ p ∨ ∃ q s, p = q ++ '/' :: s ∧ '/' ∉ s := by
  rcases Text.exists_last_piece (· = '/') p with h | ⟨q, sep, s, rfl, hsep, hs⟩
  · exact .inl fun hslash => h '/' hslash (by simp)
  · obtain rfl := of_decide_eq_true hsep
    exact .inr ⟨q, s, rfl, fun hslash => hs '/' hslash (by simp)⟩

/-- The pieces, each with the position at which it ends, when they start at a position. -/
def ends (start : Nat) : List Text → List (Text × Nat)
  | [] => []
  | s :: rest => (s, start + s.length) :: ends (start + s.length + 1) rest

theorem segments_eq (p : Text) : segments p = ends 0 (pieces p) := by
  have hfold : ∀ (ps : List Text) (acc : List (Text × Nat)) (start : Nat),
      (ps.foldl (fun (acc : List (Text × Nat) × Nat) s =>
        ((s, acc.2 + s.length) :: acc.1, acc.2 + s.length + 1)) (acc, start)).1 =
        (ends start ps).reverse ++ acc := by
    intro ps
    induction ps with
    | nil => simp [ends]
    | cons s ps ih => simp [ends, ih]
  rw [segments, hfold, List.append_nil, List.reverse_reverse]

/-- The components that pieces stand for, each with the position at which it ends. -/
def marksFrom (first : Bool) (start : Nat) : List Text → List (Component × Nat)
  | [] => []
  | s :: rest =>
    ((Component.of? first s).map fun c => (c, start + s.length)).toList ++
      marksFrom false (start + s.length + 1) rest

/-- The mark of a path that starts at the root. -/
def rootMark (p : Text) : List (Component × Nat) := if p.head? = some '/' then [(.root, 1)] else []

theorem marks_eq (p : Text) : marks p = rootMark p ++ marksFrom true 0 (pieces p) := by
  have hbody : ∀ (ps : List Text) (start k : Nat),
      ((ends start ps).zipIdx k).filterMap (fun piece =>
        (Component.of? (piece.2 = 0) piece.1.1).map fun c => (c, piece.1.2)) =
          marksFrom (k = 0) start ps := by
    intro ps
    induction ps with
    | nil => simp [ends, marksFrom]
    | cons s ps ih =>
        intro start k
        simp only [ends, List.zipIdx_cons, List.filterMap_cons, ih, marksFrom]
        cases Component.of? (decide (k = 0)) s <;> simp
  simp only [marks, segments_eq, hbody, rootMark]
  split <;> simp

/-- How far pieces reach that each have a slash behind them. -/
def extent : List Text → Nat
  | [] => 0
  | s :: ps => s.length + 1 + extent ps

theorem extent_pieces (p : Text) : extent (pieces p) = p.length + 1 := by
  induction p with
  | nil => rfl
  | cons c p ih =>
      by_cases hc : c = '/'
      · rw [pieces, Text.splitWhen_sep (by simp [hc])]
        simp only [extent] at ih ⊢
        rw [ih]
        simp
        omega
      · obtain ⟨first, ps, hp⟩ := List.exists_cons_of_ne_nil (Text.splitWhen_ne_nil (· = '/') p)
        rw [pieces, Text.splitWhen_cons (by simp [hc]) hp]
        rw [pieces, hp] at ih
        simp only [extent, List.length_cons] at ih ⊢
        omega

theorem marksFrom_append (first : Bool) (start : Nat) (ps qs : List Text) :
    marksFrom first start (ps ++ qs) =
      marksFrom first start ps ++ marksFrom (first && ps.isEmpty) (start + extent ps) qs := by
  induction ps generalizing first start with
  | nil => simp [marksFrom, extent]
  | cons s ps ih =>
      have hreach : start + s.length + 1 + extent ps = start + extent (s :: ps) := by
        simp [extent]
        omega
      simp [marksFrom, ih, hreach]

/-- The marks of a path before its last slash, a slash at the start being the root. -/
def marksBefore (q : Text) : List (Component × Nat) :=
  (if q = [] then [(.root, 1)] else rootMark q) ++ marksFrom true 0 (pieces q)

theorem marksBefore_of_ne_nil (h : q ≠ []) : marksBefore q = marks q := by
  rw [marksBefore, if_neg h, marks_eq]

theorem marksBefore_nil : marksBefore [] = [(.root, 1)] := rfl

theorem marks_append_slash (q : Text) (hs : '/' ∉ s) :
    marks (q ++ '/' :: s) = marksBefore q ++
      ((Component.of? false s).map fun c => (c, (q ++ '/' :: s).length)).toList := by
  have hroot : rootMark (q ++ '/' :: s) = if q = [] then [(.root, 1)] else rootMark q := by
    cases q <;> simp [rootMark]
  have hfirst : (true && (pieces q).isEmpty) = false := by
    simpa using Text.splitWhen_ne_nil _ q
  have hlength : 0 + (q.length + 1) + s.length = (q ++ '/' :: s).length := by
    simp
    omega
  rw [marks_eq, hroot, pieces_append_slash, pieces_of_not_mem hs, marksFrom_append, hfirst, extent_pieces,
    marksBefore]
  simp only [marksFrom, List.append_nil, List.append_assoc, hlength]

theorem marks_of_not_mem (hs : '/' ∉ s) :
    marks s = ((Component.of? true s).map fun c => (c, s.length)).toList := by
  have hroot : rootMark s = [] := by
    rw [rootMark, if_neg fun hhead : s.head? = some '/' => hs (List.mem_of_mem_head? hhead)]
  rw [marks_eq, hroot, pieces_of_not_mem hs]
  simp [marksFrom]

theorem marks_append_slash_nil (q : Text) : marks (q ++ ['/']) = marksBefore q := by
  rw [marks_append_slash q (List.not_mem_nil)]
  simp [Component.of?]

/-! ## Names joined to a path -/

/-- A path with the slash that a name behind it needs. -/
def opened (p : Text) : Text := if p.isEmpty || p.getLast? = some '/' then p else p ++ ['/']

theorem join_eq_opened (h : name.head? ≠ some '/') (p : Text) : join p name = opened p ++ name := by
  rw [join, if_neg h, opened]
  split <;> simp

theorem opened_cases (p : Text) : p = [] ∧ opened p = [] ∨ (∃ q, p = q ++ ['/'] ∧ opened p = q ++ ['/']) ∨
    p ≠ [] ∧ opened p = p ++ ['/'] := by
  rw [opened]
  by_cases hnil : p = []
  · exact .inl ⟨hnil, by simp [hnil]⟩
  by_cases hlast : p.getLast? = some '/'
  · obtain ⟨q, rfl⟩ := List.getLast?_eq_some_iff.mp hlast
    exact .inr (.inl ⟨q, rfl, by simp⟩)
  · exact .inr (.inr ⟨hnil, by simp [hnil, hlast]⟩)

/-- A name joined to a path is the whole path, or stands behind the last slash. -/
theorem join_eq (hslash : '/' ∉ name) (p : Text) :
    p = [] ∧ join p name = name ∨ (∃ q, p = q ++ ['/'] ∧ join p name = q ++ '/' :: name) ∨
      p ≠ [] ∧ join p name = p ++ '/' :: name := by
  rw [join_eq_opened fun hhead => hslash (List.mem_of_mem_head? hhead)]
  rcases opened_cases p with ⟨hp, hopened⟩ | ⟨q, hp, hopened⟩ | ⟨hp, hopened⟩
  · exact .inl ⟨hp, by simp [hopened]⟩
  · exact .inr (.inl ⟨q, hp, by simp [hopened]⟩)
  · exact .inr (.inr ⟨hp, by simp [hopened]⟩)

theorem getLast?_join_ne (h : IsName name) (p : Text) : (join p name).getLast? ≠ some '/' := by
  rw [join_eq_opened h.head?_ne, List.getLast?_append_of_ne_nil _ h.ne_nil]
  exact fun hlast => h.not_slash (List.mem_of_getLast? hlast)

theorem marks_join (h : IsName name) (p : Text) :
    marks (join p name) = marks p ++ [(.name name, (join p name).length)] := by
  rcases join_eq h.not_slash p with ⟨rfl, hjoin⟩ | ⟨q, rfl, hjoin⟩ | ⟨hp, hjoin⟩
  · rw [hjoin, marks_of_not_mem h.not_slash, h.of?]
    rfl
  · rw [hjoin, marks_append_slash q h.not_slash, h.of?, marks_append_slash_nil]
    rfl
  · rw [hjoin, marks_append_slash p h.not_slash, h.of?, marksBefore_of_ne_nil hp]
    rfl

theorem components_join (h : IsName name) (p : Text) :
    components (join p name) = components p ++ [.name name] := by
  simp [components, marks_join h]

theorem components_foldl_join {names : List Text} (h : ∀ name ∈ names, IsName name) (p : Text) :
    components (names.foldl join p) = components p ++ names.map .name := by
  induction names generalizing p with
  | nil => simp
  | cons name names ih =>
      rw [List.forall_mem_cons] at h
      rw [List.foldl_cons, ih h.2, components_join h.1]
      simp

theorem extension?_join (h : IsName name) (p : Text) : extension? (join p name) = (splitName name).2 := by
  simp [extension?, fileName?, components_join h]

/-! ## Extensions -/

private theorem afterLastDot (stem : Text) (hext : '.' ∉ ext) :
    ((stem ++ '.' :: ext).reverse.takeWhile (· ≠ '.')).reverse = ext := by
  have hall : ∀ c ∈ ext.reverse, decide (c ≠ '.') = true := fun c hc => by
    rw [decide_eq_true_eq]
    rintro rfl
    exact hext (List.mem_reverse.mp hc)
  simp only [List.reverse_append, List.reverse_cons, List.append_assoc]
  rw [List.takeWhile_append_of_pos hall]
  simp

theorem splitName_append (hstem : stem ≠ []) (hext : '.' ∉ ext) :
    splitName (stem ++ '.' :: ext) = (stem, some ext) := by
  have hlength : (stem ++ '.' :: ext).length - ext.length - 1 = stem.length := by
    simp
    omega
  simp only [splitName, afterLastDot stem hext, hlength]
  simp [hstem]
  omega

theorem splitName_of_not_mem (h : '.' ∉ name) : splitName name = (name, none) := by
  have hall : ∀ c ∈ name.reverse, decide (c ≠ '.') = true := fun c hc => by
    rw [decide_eq_true_eq]
    rintro rfl
    exact h (List.mem_reverse.mp hc)
  have htail : (name.reverse.takeWhile (· ≠ '.')).reverse = name := by
    have hwhole : (name.reverse ++ []).takeWhile (· ≠ '.') = name.reverse ++ [].takeWhile (· ≠ '.') :=
      List.takeWhile_append_of_pos hall
    rw [List.append_nil, List.takeWhile_nil, List.append_nil] at hwhole
    rw [hwhole, List.reverse_reverse]
  simp only [splitName, htail]
  simp

theorem splitName_dot (hext : '.' ∉ ext) : splitName ('.' :: ext) = ('.' :: ext, none) := by
  have htail := afterLastDot [] hext
  rw [List.nil_append] at htail
  simp only [splitName, htail]
  simp

/-- A file name is without an extension or is a stem with an extension behind a dot. -/
theorem splitName_cases (name : Text) :
    splitName name = (name, none) ∨
      ∃ stem ext, name = stem ++ '.' :: ext ∧ stem ≠ [] ∧ '.' ∉ ext ∧ splitName name = (stem, some ext) := by
  rcases Text.exists_last_piece (· = '.') name with hnone | ⟨stem, sep, ext, rfl, hsep, hext⟩
  · exact .inl (splitName_of_not_mem fun hdot => hnone '.' hdot (by simp))
  · obtain rfl := of_decide_eq_true hsep
    have hdot : '.' ∉ ext := fun hdot => hext '.' hdot (by simp)
    by_cases hstem : stem = []
    · subst hstem
      exact .inl (splitName_dot hdot)
    · exact .inr ⟨stem, ext, rfl, hstem, hdot, splitName_append hstem hdot⟩

theorem eq_of_splitName (h : (splitName name).2 = some ext) :
    ∃ stem, name = stem ++ '.' :: ext ∧ stem ≠ [] ∧ splitName name = (stem, some ext) := by
  rcases splitName_cases name with hnone | ⟨stem, ext', hname, hstem, -, hsplit⟩
  · rw [hnone] at h
    cases h
  · rw [hsplit] at h
    cases h
    exact ⟨stem, hname, hstem, hsplit⟩

/-- The file name with another extension. -/
def renamed (name ext : Text) : Text := (splitName name).1 ++ '.' :: ext

theorem head?_renamed_ne (h : IsName name) (ext : Text) : (renamed name ext).head? ≠ some '/' := by
  have hhead := h.head?_ne
  rcases splitName_cases name with hsplit | ⟨stem, _, rfl, hstem, -, hsplit⟩
  · rwa [renamed, hsplit, List.head?_append_of_ne_nil _ h.ne_nil]
  · rw [List.head?_append_of_ne_nil _ hstem] at hhead
    rwa [renamed, hsplit, List.head?_append_of_ne_nil _ hstem]

theorem withExtension_join (h : IsName name) (p ext : Text) :
    withExtension (join p name) ext = join p (renamed name ext) := by
  rw [withExtension, marks_join h, List.getLast?_concat]
  have hlead : ∀ lead : Text, (lead ++ name).take ((lead ++ name).length - name.length) = lead := by
    simp
  rw [join_eq_opened h.head?_ne, join_eq_opened (head?_renamed_ne h ext), renamed]
  simp only [hlead, List.append_assoc]

/-- A name keeps being one when its extension is replaced by one that is no longer. -/
theorem IsName.of_stem {ext' : Text} (h : IsName (stem ++ '.' :: ext)) (hstem : stem ≠ []) (hne : ext' ≠ [])
    (hslash : '/' ∉ ext') (hzero : '\x00' ∉ ext')
    (hshort : (Utf8.encode ext').length ≤ (Utf8.encode ext).length) : IsName (stem ++ '.' :: ext') := by
  have hlong : 2 < (stem ++ '.' :: ext').length := by
    have hstem := List.length_pos_iff.mpr hstem
    have hne := List.length_pos_iff.mpr hne
    simp only [List.length_append, List.length_cons]
    omega
  refine ⟨by simp, ?_, ?_, ?_, ?_, ?_⟩
  · intro heq
    simp [heq] at hlong
  · intro heq
    simp [heq] at hlong
  · have hnot := h.not_slash
    simp only [List.mem_append, List.mem_cons, not_or] at hnot ⊢
    exact ⟨hnot.1, hnot.2.1, hslash⟩
  · have hnot := h.not_zero
    simp only [List.mem_append, List.mem_cons, not_or] at hnot ⊢
    exact ⟨hnot.1, hnot.2.1, hzero⟩
  · have hbytes := h.short
    simp only [Utf8.encode, List.flatMap_append, List.flatMap_cons, List.length_append] at hbytes hshort ⊢
    omega

/-! ## The order of paths -/

namespace Component

theorem precedes_orders : OrdersDistinct precedes where
  total {c d} hcd := by
    cases c <;> cases d <;> simp_all [precedes, rank, Text.precedes_total]
  antisymm {c d} hcd hle hback := by
    cases c with
    | name s =>
        cases d with
        | name t => exact hcd (congrArg name (Text.precedes_antisymm hle hback))
        | _ => simp [precedes, rank] at hle
    | _ => cases d <;> simp_all [precedes, rank]
  trans {c d e} hcd hde hle hle' := by
    cases d with
    | name t =>
        cases e with
        | name u =>
            cases c with
            | name s => exact Text.precedes_trans hle hle'
            | _ => rfl
        | _ => simp [precedes, rank] at hle'
    | _ => cases c <;> cases e <;> simp_all [precedes, rank]

end Component

theorem componentsPrecede_eq (cs ds : List Component) :
    componentsPrecede cs ds = listPrecedes Component.precedes cs ds := by
  induction cs generalizing ds with
  | nil => cases ds <;> rfl
  | cons c cs ih =>
      cases ds with
      | nil => rfl
      | cons d ds => simp only [componentsPrecede, listPrecedes, ih]

theorem precedes_total (p q : Text) : precedes p q ∨ precedes q p := by
  simpa only [precedes, componentsPrecede_eq] using
    Component.precedes_orders.list_total (components p) (components q)

theorem precedes_trans (hpq : precedes p q) (hqs : precedes q s) : precedes p s := by
  rw [precedes, componentsPrecede_eq] at hpq hqs ⊢
  exact Component.precedes_orders.list_trans hpq hqs

theorem components_eq_of_precedes (hpq : precedes p q) (hqp : precedes q p) :
    components p = components q := by
  rw [precedes, componentsPrecede_eq] at hpq hqp
  exact Component.precedes_orders.list_antisymm hpq hqp

end Crosscheck.Path
