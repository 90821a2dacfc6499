import Crosscheck.Proofs.Machine.Walk
/-!
# Parents

The parent of a path has one component less and leads to the directory that the last component is looked up
in, and another extension changes the last component alone. Slashes and dots at the end of a path do not count,
so the arguments go from one slash to the one before it.
-/

namespace Crosscheck

namespace Path

variable {p q s name stem ext : Text}

/-! ## From slash to slash -/

/-- What holds of pieces and is carried over a slash and a piece behind it holds of all paths. -/
theorem slash_induction {motive : Text → Prop} (whole : ∀ s, '/' ∉ s → motive s)
    (behind : ∀ q s, '/' ∉ s → motive q → motive (q ++ '/' :: s)) (p : Text) : motive p := by
  induction hlength : p.length using Nat.strongRecOn generalizing p with
  | ind n ih =>
      rcases exists_last_slash p with hp | ⟨q, s, rfl, hs⟩
      · exact whole p hp
      · exact behind q s hs (ih q.length (by simp [← hlength]) q rfl)

namespace Component

variable {c : Component} {first : Bool}

theorem ne_root_of_of? (h : of? first s = some c) : c ≠ .root := by
  rintro rfl
  simp only [of?] at h
  split_ifs at h <;> cases h

theorem of?_false_eq_none : of? false s = none ↔ s = [] ∨ s = ['.'] := by
  simp only [of?]
  split_ifs <;> simp_all

theorem of?_true_eq_none : of? true s = none ↔ s = [] := by
  simp only [of?]
  split_ifs <;> simp_all

theorem of?_eq_name : of? first s = some (.name name) ↔
    name = s ∧ s ≠ [] ∧ s ≠ ['.'] ∧ s ≠ ['.', '.'] := by
  simp only [of?, List.isEmpty_iff]
  by_cases hnil : s = []
  · simp [hnil]
  by_cases hdot : s = ['.']
  · cases first <;> simp [hdot]
  by_cases hdots : s = ['.', '.']
  · simp [hdots]
  · simp [hnil, hdot, hdots, eq_comm]

end Component

theorem marks_append_slash_of_some {c : Component} (hs : '/' ∉ s) (hc : Component.of? false s = some c)
    (q : Text) : marks (q ++ '/' :: s) = marksBefore q ++ [(c, (q ++ '/' :: s).length)] := by
  rw [marks_append_slash q hs, hc]
  rfl

theorem marks_append_slash_of_none (hs : '/' ∉ s) (hc : Component.of? false s = none) (q : Text) :
    marks (q ++ '/' :: s) = marksBefore q := by
  rw [marks_append_slash q hs, hc]
  exact List.append_nil _

theorem components_append_slash_of_none (hs : '/' ∉ s) (hc : Component.of? false s = none) (hq : q ≠ []) :
    components (q ++ '/' :: s) = components q := by
  rw [components, marks_append_slash_of_none hs hc, marksBefore_of_ne_nil hq, ← components]

theorem le_length_of_mem_marks {mark : Component × Nat} (h : mark ∈ marks p) : mark.2 ≤ p.length := by
  induction p using slash_induction with
  | whole s hs =>
      rw [marks_of_not_mem hs] at h
      cases hc : Component.of? true s <;> simp_all
  | behind q s hs ih =>
      rw [marks_append_slash q hs, List.mem_append] at h
      have hq : mark ∈ marksBefore q → mark.2 ≤ (q ++ '/' :: s).length := by
        intro h
        by_cases hq : q = []
        · subst hq
          rw [marksBefore_nil, List.mem_singleton] at h
          simp [h]
        · rw [marksBefore_of_ne_nil hq] at h
          have hle := ih h
          rw [List.length_append]
          omega
      rcases h with h | h
      · exact hq h
      · cases hc : Component.of? false s <;> simp_all

/-! ## Paths cut after a component -/

/-- The path up to the end of its last component. -/
def trimmed (p : Text) : Text :=
  match (marks p).getLast? with
  | some (_, stop) => p.take stop
  | none => []

theorem trimmed_of_not_mem (hs : '/' ∉ s) : trimmed s = s := by
  rw [trimmed, marks_of_not_mem hs]
  cases hc : Component.of? true s with
  | none => simp [Component.of?_true_eq_none.mp hc]
  | some c => simp

theorem trimmed_append_slash_of_some {c : Component} (hs : '/' ∉ s) (hc : Component.of? false s = some c)
    (q : Text) : trimmed (q ++ '/' :: s) = q ++ '/' :: s := by
  rw [trimmed, marks_append_slash_of_some hs hc, List.getLast?_concat]
  exact List.take_length

/-- The path before a slash, the root if there is nothing before it. -/
def before (q : Text) : Text := if q = [] then ['/'] else trimmed q

theorem take_last_marksBefore (q s : Text) : (match (marksBefore q).getLast? with
    | some (_, stop) => (q ++ '/' :: s).take stop
    | none => []) = before q := by
  by_cases hq : q = []
  · subst hq
    rfl
  · rw [marksBefore_of_ne_nil hq, before, if_neg hq, trimmed]
    cases hlast : (marks q).getLast? with
    | none => rfl
    | some mark =>
        exact List.take_append_of_le_length (le_length_of_mem_marks (List.mem_of_getLast? hlast))

theorem trimmed_append_slash_of_none (hs : '/' ∉ s) (hc : Component.of? false s = none) (q : Text) :
    trimmed (q ++ '/' :: s) = before q := by
  rw [trimmed, marks_append_slash_of_none hs hc, ← take_last_marksBefore q s]

theorem marks_trimmed (p : Text) : marks (trimmed p) = marks p := by
  induction p using slash_induction with
  | whole s hs => rw [trimmed_of_not_mem hs]
  | behind q s hs ih =>
      cases hc : Component.of? false s with
      | some c => rw [trimmed_append_slash_of_some hs hc]
      | none =>
          rw [trimmed_append_slash_of_none hs hc, marks_append_slash_of_none hs hc, before]
          split
          · next hq => rw [hq]; rfl
          · next hq => rw [ih, marksBefore_of_ne_nil hq]

theorem marks_before (q : Text) : marks (before q) = marksBefore q := by
  rw [before]
  split
  · next hq => rw [hq]; rfl
  · next hq => rw [marks_trimmed, marksBefore_of_ne_nil hq]

/-! ## Parents -/

theorem parent?_of_not_mem (hs : '/' ∉ s) (hne : s ≠ []) : parent? s = some [] := by
  rw [parent?, marks_of_not_mem hs]
  cases hc : Component.of? true s with
  | none => exact absurd (Component.of?_true_eq_none.mp hc) hne
  | some c =>
      have hroot := Component.ne_root_of_of? hc
      cases c <;> simp_all

theorem parent?_append_slash_of_some {c : Component} (hs : '/' ∉ s) (hc : Component.of? false s = some c)
    (q : Text) : parent? (q ++ '/' :: s) = some (before q) := by
  have hroot := Component.ne_root_of_of? hc
  rw [← take_last_marksBefore q s, parent?, marks_append_slash_of_some hs hc, List.reverse_concat]
  rcases List.eq_nil_or_concat' (marksBefore q) with hnil | ⟨marks, mark, hmarks⟩
  · rw [hnil]
    cases c <;> simp_all
  · rw [hmarks]
    cases c <;> simp_all

theorem parent?_append_slash_of_none (hs : '/' ∉ s) (hc : Component.of? false s = none) (hq : q ≠ []) :
    parent? (q ++ '/' :: s) = parent? q := by
  rw [parent?, parent?, marks_append_slash_of_none hs hc, marksBefore_of_ne_nil hq]
  rcases List.eq_nil_or_concat' (marks q) with hnil | ⟨marks', ⟨c, stop⟩, hmarks⟩
  · rw [hnil]
    rfl
  rcases List.eq_nil_or_concat' marks' with rfl | ⟨marks'', ⟨c', stop'⟩, rfl⟩
  · rw [hmarks]
    cases c <;> rfl
  · have hmem : (c', stop') ∈ marks q := by simp [hmarks]
    have htake : (q ++ '/' :: s).take stop' = q.take stop' :=
      List.take_append_of_le_length (le_length_of_mem_marks hmem)
    rw [hmarks]
    cases c <;> simp [htake]

/-- The root has no parent, and any other path has one component more than its parent. -/
theorem parent_cases (p : Text) : parent? p = none ∧ (components p = [] ∨ components p = [.root]) ∨
    ∃ q c, parent? p = some q ∧ components p = components q ++ [c] ∧ c ≠ .root := by
  induction p using slash_induction with
  | whole s hs =>
      by_cases hne : s = []
      · subst hne
        exact .inl ⟨rfl, .inl rfl⟩
      · obtain ⟨c, hc⟩ := Option.ne_none_iff_exists'.mp fun hnone => hne (Component.of?_true_eq_none.mp hnone)
        refine .inr ⟨[], c, parent?_of_not_mem hs hne, ?_, Component.ne_root_of_of? hc⟩
        rw [components, marks_of_not_mem hs, hc]
        rfl
  | behind q s hs ih =>
      cases hc : Component.of? false s with
      | some c =>
          refine .inr ⟨before q, c, parent?_append_slash_of_some hs hc q, ?_, Component.ne_root_of_of? hc⟩
          simp [components, marks_append_slash_of_some hs hc, marks_before]
      | none =>
          by_cases hq : q = []
          · subst hq
            rw [parent?, components, marks_append_slash_of_none hs hc]
            exact .inl ⟨rfl, .inr rfl⟩
          · rwa [parent?_append_slash_of_none hs hc hq, components_append_slash_of_none hs hc hq]

theorem components_parent (h : parent? p = some q) :
    ∃ c, components p = components q ++ [c] ∧ c ≠ .root := by
  rcases parent_cases p with ⟨hnone, -⟩ | ⟨q', c, hsome, hc⟩
  · rw [h] at hnone
    cases hnone
  · rw [h] at hsome
    cases hsome
    exact ⟨c, hc⟩

theorem exists_parent {cs : List Component} {c : Component} (h : components p = cs ++ [c]) (hc : c ≠ .root) :
    ∃ q, parent? p = some q ∧ components q = cs := by
  rcases parent_cases p with ⟨-, hnil | hroot⟩ | ⟨q, c', hsome, hlast, -⟩
  · simp [hnil] at h
  · rw [hroot] at h
    cases cs <;> simp_all
  · rw [h] at hlast
    exact ⟨q, hsome, (List.append_inj' hlast rfl).1.symm⟩

theorem ne_root_of_mem_marksFrom {first : Bool} {start : Nat} {ps : List Text} {mark : Component × Nat}
    (h : mark ∈ marksFrom first start ps) : mark.1 ≠ .root := by
  induction ps generalizing first start with
  | nil => cases h
  | cons s ps ih =>
      rw [marksFrom, List.mem_append] at h
      rcases h with h | h
      · cases hc : Component.of? first s with
        | none => simp [hc] at h
        | some c =>
            obtain rfl : mark = (c, start + s.length) := by simpa [hc] using h
            exact Component.ne_root_of_of? hc
      · exact ih h

/-- Only the first component can be the root. -/
theorem ne_root_of_components {cs ds : List Component} {c : Component} (h : components p = cs ++ c :: ds)
    (hcs : cs ≠ []) : c ≠ .root := by
  have htail : c ∈ (components p).tail := by
    obtain ⟨c', cs, rfl⟩ := List.exists_cons_of_ne_nil hcs
    simp [h]
  have hbody : c ∈ (marksFrom true 0 (pieces p)).map Prod.fst := by
    rw [components, marks_eq, rootMark] at htail
    split at htail
    · exact htail
    · exact List.mem_of_mem_tail htail
  obtain ⟨mark, hmark, rfl⟩ := List.mem_map.mp hbody
  exact ne_root_of_mem_marksFrom hmark

/-! ## Extensions -/

theorem renamed_ne (hname : name ≠ []) (hext : ext ≠ []) :
    renamed name ext ≠ [] ∧ renamed name ext ≠ ['.'] ∧ renamed name ext ≠ ['.', '.'] := by
  have hstem : (splitName name).1 ≠ [] := by
    rcases splitName_cases name with h | ⟨stem, _, -, hstem, -, h⟩
    · rwa [h]
    · rwa [h]
  have hstem := List.length_pos_iff.mpr hstem
  have hext := List.length_pos_iff.mpr hext
  have hlong : 2 < (renamed name ext).length := by
    rw [renamed, List.length_append, List.length_cons]
    omega
  refine ⟨?_, ?_, ?_⟩ <;> rintro h <;> simp [h] at hlong

theorem not_slash_renamed (hname : '/' ∉ name) (hext : '/' ∉ ext) : '/' ∉ renamed name ext := by
  have hstem : '/' ∉ (splitName name).1 := by
    rcases splitName_cases name with h | ⟨stem, ext', rfl, -, -, h⟩
    · rwa [h]
    · rw [h]
      exact fun hmem => hname (List.mem_append_left _ hmem)
  rw [renamed]
  simp [hstem, hext]

theorem fileName?_iff {cs : List Component} {c : Component} (h : components p = cs ++ [c]) :
    fileName? p = some name ↔ c = .name name := by
  rw [fileName?, h, List.getLast?_concat]
  cases c <;> simp

theorem extension?_congr (h : components p = components q) : extension? p = extension? q := by
  rw [extension?, extension?, fileName?, fileName?, h]

theorem withExtension_eq {stop : Nat} (h : (marks p).getLast? = some (.name name, stop)) (ext : Text) :
    withExtension p ext = p.take (stop - name.length) ++ renamed name ext := by
  rw [withExtension, h, renamed]
  exact List.append_assoc ..

theorem fileName?_eq_some : fileName? p = some name ↔
    ∃ stop, (marks p).getLast? = some (.name name, stop) := by
  rw [fileName?, components, List.getLast?_map]
  cases hlast : (marks p).getLast? with
  | none => simp
  | some mark =>
      obtain ⟨c, stop⟩ := mark
      cases c <;> simp

theorem of?_of_fileName? (hs : '/' ∉ s) (h : fileName? s = some name) :
    Component.of? true s = some (.name name) := by
  obtain ⟨stop, hlast⟩ := fileName?_eq_some.mp h
  rw [marks_of_not_mem hs] at hlast
  cases hc : Component.of? true s <;> simp_all

theorem eq_name_of_fileName? {c : Component} (hs : '/' ∉ s) (hc : Component.of? false s = some c)
    (h : fileName? (q ++ '/' :: s) = some name) : c = .name name := by
  obtain ⟨stop, hlast⟩ := fileName?_eq_some.mp h
  rw [marks_append_slash_of_some hs hc, List.getLast?_concat] at hlast
  simp_all

/-- Another extension changes the last component alone. -/
theorem components_withExtension (h : fileName? p = some name) (hne : ext ≠ []) (hslash : '/' ∉ ext) :
    components (withExtension p ext) = (components p).dropLast ++ [.name (renamed name ext)] := by
  obtain ⟨stop, hlast⟩ := fileName?_eq_some.mp h
  induction p using slash_induction generalizing stop with
  | whole s hs =>
      rw [marks_of_not_mem hs] at hlast
      obtain ⟨c, hc⟩ : ∃ c, Component.of? true s = some c := by
        cases hc : Component.of? true s <;> simp_all
      obtain ⟨rfl, rfl⟩ : c = .name name ∧ s.length = stop := by simpa [hc] using hlast
      obtain ⟨rfl, hname⟩ := Component.of?_eq_name.mp hc
      have hrenamed : Component.of? true (renamed name ext) = some (.name (renamed name ext)) :=
        Component.of?_eq_name.mpr ⟨rfl, renamed_ne hname.1 hne⟩
      have hmarks : (marks name).getLast? = some (.name name, name.length) := by
        rw [marks_of_not_mem hs, hc]
        rfl
      rw [withExtension_eq hmarks, Nat.sub_self, List.take_zero, List.nil_append, components,
        marks_of_not_mem (not_slash_renamed hs hslash), hrenamed, components, marks_of_not_mem hs, hc]
      rfl
  | behind q s hs ih =>
      have hwhole := withExtension_eq hlast ext
      cases hc : Component.of? false s with
      | some c =>
          rw [marks_append_slash_of_some hs hc, List.getLast?_concat] at hlast
          obtain ⟨rfl, rfl⟩ : c = .name name ∧ (q ++ '/' :: s).length = stop := by simpa using hlast
          obtain ⟨rfl, hname⟩ := Component.of?_eq_name.mp hc
          have hrenamed : Component.of? false (renamed name ext) = some (.name (renamed name ext)) :=
            Component.of?_eq_name.mpr ⟨rfl, renamed_ne hname.1 hne⟩
          have htake : (q ++ '/' :: name).take ((q ++ '/' :: name).length - name.length) = q ++ ['/'] := by
            rw [List.append_cons, List.length_append, Nat.add_sub_cancel]
            exact List.take_left
          rw [hwhole, htake, List.append_assoc, List.singleton_append, components,
            marks_append_slash_of_some (not_slash_renamed hs hslash) hrenamed, components,
            marks_append_slash_of_some hs hc]
          simp
      | none =>
          -- What is behind the slash does not count, and the file name ends before it.
          rw [marks_append_slash_of_none hs hc] at hlast
          have hq : q ≠ [] := by
            rintro rfl
            simp [marksBefore_nil] at hlast
          rw [marksBefore_of_ne_nil hq] at hlast
          have hle := le_length_of_mem_marks (List.mem_of_getLast? hlast)
          have htake : (q ++ '/' :: s).take (stop - name.length) = q.take (stop - name.length) :=
            List.take_append_of_le_length (Nat.le_trans (Nat.sub_le ..) hle)
          rw [hwhole, htake, ← withExtension_eq hlast, components_append_slash_of_none hs hc hq]
          exact ih (fileName?_eq_some.mpr ⟨stop, hlast⟩) stop hlast

/-- Paths with one extension stay different with another. -/
theorem components_withExtension_iff {old : Text} (hp : extension? p = some old)
    (hq : extension? q = some old) (hne : ext ≠ []) (hslash : '/' ∉ ext) :
    components (withExtension p ext) = components (withExtension q ext) ↔ components p = components q := by
  have hlast : ∀ {p : Text}, extension? p = some old → ∃ stem,
      renamed (stem ++ '.' :: old) ext = stem ++ '.' :: ext ∧
      fileName? p = some (stem ++ '.' :: old) ∧
      components p = (components p).dropLast ++ [.name (stem ++ '.' :: old)] := by
    intro p h
    obtain ⟨name, hname, hsplit⟩ := Option.bind_eq_some_iff.mp h
    obtain ⟨stem, rfl, -, hwhole⟩ := eq_of_splitName hsplit
    refine ⟨stem, by rw [renamed, hwhole], hname, ?_⟩
    obtain ⟨cs, c, hcs⟩ := (List.eq_nil_or_concat' (components p)).resolve_left fun hnil => by
      simp [fileName?, hnil] at hname
    rw [hcs, (fileName?_iff hcs).mp hname, List.dropLast_concat]
  obtain ⟨stem, hrenamed, hname, hcomponents⟩ := hlast hp
  obtain ⟨stem', hrenamed', hname', hcomponents'⟩ := hlast hq
  rw [components_withExtension hname hne hslash, components_withExtension hname' hne hslash, hrenamed,
    hrenamed']
  constructor
  · intro h
    obtain ⟨hbefore, hafter⟩ := List.append_inj' h rfl
    have hstem : stem = stem' := by simpa using hafter
    rw [hcomponents, hcomponents', hbefore, hstem]
  · intro h
    have hstem : stem = stem' := by
      rw [fileName?, h, ← fileName?, hname'] at hname
      simpa using hname.symm
    rw [h, hstem]

end Path

/-! ## Where parents lead -/

namespace Disk

variable {d : Disk} {links : Nat} {place between : Place} {name s : Text} {e : Entry}

/-- The last name of a path is looked up in the directory before it. -/
theorem eq_append_of_walk (h : d.walk links between [s] = .ok place) (hentry : d.entry? place = some e)
    {first : Bool} (hs : Path.Component.of? first s = some (.name name))
    (hlink : ∀ target, d.entry? (between ++ [name]) ≠ some (.link target)) : place = between ++ [name] := by
  obtain ⟨rfl, hne, hdot, hdots⟩ := Path.Component.of?_eq_name.mp hs
  obtain ⟨-, ⟨hstay, -⟩ | ⟨hup, -⟩ | ⟨-, ⟨-, target, -, htarget, -⟩ | hrest⟩⟩ := walk_cons_ok h hentry
  · exact absurd hstay (not_or.mpr ⟨hne, hdot⟩)
  · exact absurd hup hdots
  · exact absurd htarget (hlink target)
  · rw [walk] at hrest
    exact (Except.ok.inj hrest).symm

theorem startOf_append {path : Text} (hne : path ≠ []) (here : Place) (more : Text) :
    startOf here (path ++ more) = startOf here path := by
  rw [startOf, startOf, List.head?_append_of_ne_nil _ hne]

end Disk

namespace World

variable {w : World} {p q path : Text} {place : Place} {links : Nat} {e : Entry}

theorem Leads.of_follows (hne : path ≠ []) (hzero : '\x00' ∉ path)
    (h : w.disk.Follows Disk.maxLinks (Disk.startOf w.here path) (Path.pieces path) links place) :
    w.Leads path place :=
  ⟨.inr ((Disk.locate_eq hne hzero).trans h.walk), h.directory⟩

/-- The path before a slash leads where its pieces lead. -/
theorem Leads.before_of_follows (hzero : '\x00' ∉ q) {s : Text}
    (h : w.disk.Follows Disk.maxLinks (Disk.startOf w.here (q ++ '/' :: s)) (Path.pieces q) links place) :
    w.Leads (Path.before q) place := by
  induction q using Path.slash_induction generalizing s links with
  | whole q hq =>
      by_cases hne : q = []
      · subst hne
        have hroot := Disk.Follows.stay h.start_directory (.inl rfl) h
        exact .of_follows (by decide) (by decide) hroot
      · rw [Path.before, if_neg hne, Path.trimmed_of_not_mem hq]
        rw [Disk.startOf_append hne] at h
        exact .of_follows hne hzero h
  | behind q s' hs ih =>
      have hne : q ++ '/' :: s' ≠ [] := by simp
      rw [Path.before, if_neg hne]
      rw [Disk.startOf_append hne] at h
      cases hc : Path.Component.of? false s' with
      | some c =>
          rw [Path.trimmed_append_slash_of_some hs hc]
          exact .of_follows hne hzero h
      | none =>
          rw [Path.pieces_append_slash, Path.pieces_of_not_mem hs] at h
          obtain ⟨links', hbefore⟩ := h.of_append_idle (Path.Component.of?_false_eq_none.mp hc)
          rw [Path.trimmed_append_slash_of_none hs hc]
          exact ih (fun hmem => hzero (List.mem_append_left _ hmem)) hbefore

/-- Where the parent of a path leads, the last name is looked up. -/
theorem leads_parent (hparent : Path.parent? p = some q) (hlocate : w.disk.locate w.here p = .ok place)
    (hentry : w.disk.entry? place = some e) : ∃ between, w.Leads q between ∧
      ∀ name, Path.fileName? p = some name →
        (∀ target, w.disk.entry? (between ++ [name]) ≠ some (.link target)) → place = between ++ [name] := by
  induction p using Path.slash_induction with
  | whole s hs =>
      obtain ⟨hne, hzero, hwalk⟩ := Disk.walk_of_locate hlocate
      have hstart : Disk.startOf w.here s = w.here :=
        if_neg fun hhead => hs (List.mem_of_mem_head? hhead)
      rw [Path.pieces_of_not_mem hs, hstart] at hwalk
      rw [Path.parent?_of_not_mem hs hne] at hparent
      cases hparent
      refine ⟨w.here, ⟨.inl ⟨rfl, rfl⟩, (Disk.walk_cons_ok hwalk hentry).1⟩, fun name hname hlink => ?_⟩
      exact Disk.eq_append_of_walk hwalk hentry (Path.of?_of_fileName? hs hname) hlink
  | behind q' s hs ih =>
      obtain ⟨-, hzero, hwalk⟩ := Disk.walk_of_locate hlocate
      rw [Path.pieces_append_slash, Path.pieces_of_not_mem hs] at hwalk
      obtain ⟨links, between, hfollows, hlast⟩ :=
        Disk.follows_of_walk hwalk hentry (.inl (List.cons_ne_nil _ _))
      have hzero' : '\x00' ∉ q' := fun hmem => hzero (List.mem_append_left _ hmem)
      cases hc : Path.Component.of? false s with
      | some c =>
          rw [Path.parent?_append_slash_of_some hs hc] at hparent
          cases hparent
          refine ⟨between, .before_of_follows hzero' hfollows, fun name hname hlink => ?_⟩
          obtain rfl := Path.eq_name_of_fileName? hs hc hname
          exact Disk.eq_append_of_walk hlast hentry hc hlink
      | none =>
          -- What is behind the slash leads nowhere else and is no part of the parent either.
          have hne : q' ≠ [] := by
            rintro rfl
            rw [Path.parent?, Path.marks_append_slash_of_none hs hc] at hparent
            cases hparent
          rw [Path.parent?_append_slash_of_none hs hc hne] at hparent
          rw [Disk.startOf_append hne] at hfollows
          obtain rfl := Disk.eq_of_walk_idle hlast hentry (Path.Component.of?_false_eq_none.mp hc)
          obtain ⟨between, hleads, hlookup⟩ := ih hparent ((Disk.locate_eq hne hzero').trans hfollows.walk)
          refine ⟨between, hleads, fun name hname => hlookup name ?_⟩
          rwa [Path.fileName?, Path.components_append_slash_of_none hs hc hne] at hname

/-- The same for a path to a directory. -/
theorem Leads.parent (h : w.Leads p place) (hparent : Path.parent? p = some q) :
    ∃ between, w.Leads q between ∧ ∀ name, Path.fileName? p = some name →
      (∀ target, w.disk.entry? (between ++ [name]) ≠ some (.link target)) → place = between ++ [name] := by
  rcases h.1 with ⟨rfl, -⟩ | hlocate
  · cases hparent
  · exact leads_parent hparent hlocate h.2

end World

end Crosscheck
