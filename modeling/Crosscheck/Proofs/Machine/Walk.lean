import Crosscheck.Proofs.Machine.Disk
import Crosscheck.Proofs.Text.Utf8
import Crosscheck.World
/-!
# Paths to directories

A path that leads to a directory goes on from there when more names are put behind it. It leads to the same
directory on every disk that has the same directories and links on the way.
-/

namespace Crosscheck

namespace Disk

variable {d d' : Disk} {links links' : Nat} {place q : Place} {name : Text} {names more : List Text}

/-- A name that stands for an entry of a directory and is not too long for it. -/
structure IsEntryName (name : Text) : Prop where
  ne_nil : name ≠ []
  ne_dot : name ≠ ['.']
  ne_dots : name ≠ ['.', '.']
  short : (Utf8.encode name).length ≤ 255

/-- Where a path is followed from. -/
def startOf (place : Place) (path : Text) : Place := if path.head? = some '/' then [] else place

/-- The names lead from directory to directory, and use up some of the links that may be followed. -/
inductive Follows (d : Disk) : Nat → Place → List Text → Nat → Place → Prop
  | done {links : Nat} {place : Place} (here : d.entry? place = some .directory) :
      Follows d links place [] links place
  | stay {links links' : Nat} {place q : Place} {name : Text} {rest : List Text}
      (here : d.entry? place = some .directory) (empty : name = [] ∨ name = ['.'])
      (next : Follows d links place rest links' q) : Follows d links place (name :: rest) links' q
  | up {links links' : Nat} {place q : Place} {rest : List Text}
      (here : d.entry? place = some .directory) (next : Follows d links place.dropLast rest links' q) :
      Follows d links place (['.', '.'] :: rest) links' q
  | down {links links' : Nat} {place q : Place} {name : Text} {rest : List Text}
      (here : d.entry? place = some .directory) (entry : IsEntryName name)
      (there : d.entry? (place ++ [name]) = some .directory)
      (next : Follows d links (place ++ [name]) rest links' q) :
      Follows d links place (name :: rest) links' q
  | through {links links' : Nat} {place q : Place} {name target : Text} {rest : List Text}
      (here : d.entry? place = some .directory) (entry : IsEntryName name)
      (there : d.entry? (place ++ [name]) = some (.link target))
      (next : Follows d links (startOf place target) (Path.pieces target ++ rest) links' q) :
      Follows d (links + 1) place (name :: rest) links' q

namespace Follows

theorem directory (h : d.Follows links place names links' q) : d.entry? q = some .directory := by
  induction h with
  | done here => exact here
  | stay _ _ _ ih | up _ _ ih | down _ _ _ _ ih | through _ _ _ _ ih => exact ih

/-- What is walked after the names starts where they lead. -/
theorem walk_append (h : d.Follows links place names links' q) (more : List Text) :
    d.walk links place (names ++ more) = d.walk links' q more := by
  induction h with
  | done here => rfl
  | stay here empty next ih =>
      rw [List.cons_append, walk, here]
      simpa [empty] using ih
  | up here next ih =>
      rw [List.cons_append, walk, here]
      simpa using ih
  | down here entry there next ih =>
      rw [List.cons_append, walk, here]
      simpa [entry.ne_nil, entry.ne_dot, entry.ne_dots, there, Nat.not_lt.mpr entry.short] using ih
  | through here entry there next ih =>
      rw [List.cons_append, walk, here]
      rw [List.append_assoc] at ih
      simpa [entry.ne_nil, entry.ne_dot, entry.ne_dots, there, Nat.not_lt.mpr entry.short, startOf] using ih

theorem start_directory (h : d.Follows links place names links' q) :
    d.entry? place = some .directory := by
  cases h <;> assumption

end Follows

/-- How a walk that ends somewhere begins. -/
theorem walk_cons_ok {e : Entry} {rest : List Text} (h : d.walk links place (name :: rest) = .ok q)
    (hq : d.entry? q = some e) : d.entry? place = some .directory ∧
      ((name = [] ∨ name = ['.']) ∧ d.walk links place rest = .ok q ∨
        name = ['.', '.'] ∧ d.walk links place.dropLast rest = .ok q ∨
        IsEntryName name ∧ ((∃ before target, links = before + 1 ∧
            d.entry? (place ++ [name]) = some (.link target) ∧
            d.walk before (startOf place target) (Path.pieces target ++ rest) = .ok q) ∨
          d.walk links (place ++ [name]) rest = .ok q)) := by
  rw [walk] at h
  split at h
  · next here =>
    refine ⟨here, ?_⟩
    split at h
    · next hstay => exact .inl ⟨by simpa using hstay, h⟩
    · next hstay =>
      split at h
      · next hup => exact .inr (.inl ⟨hup, h⟩)
      · next hup =>
        split at h
        · cases h
        · next hshort =>
          simp only [List.isEmpty_iff, Bool.or_eq_true, decide_eq_true_eq, not_or] at hstay
          refine .inr (.inr ⟨⟨hstay.1, hstay.2, hup, by omega⟩, ?_⟩)
          split at h
          · next hnone =>
            split at h
            · cases h
              rw [hnone] at hq
              cases hq
            · cases h
          · next target hlink =>
            split at h
            · cases h
            · exact .inl ⟨_, target, rfl, hlink, h⟩
          · exact .inr h
  · cases h

theorem directory_of_walk {e : Entry} (h : d.walk links place more = .ok q) (hq : d.entry? q = some e)
    (hmore : more ≠ [] ∨ e = .directory) : d.entry? place = some .directory := by
  cases more with
  | nil =>
      rw [walk] at h
      cases h
      rw [hq, hmore.resolve_left (by simp)]
  | cons name more => exact (walk_cons_ok h hq).1

/-- A walk that ends somewhere leads through directories and links, the end itself apart. -/
theorem follows_of_walk {d : Disk} {links : Nat} {place q : Place} {names more : List Text} {e : Entry}
    (h : d.walk links place (names ++ more) = .ok q) (hq : d.entry? q = some e)
    (hmore : more ≠ [] ∨ e = .directory) : ∃ links' between,
      d.Follows links place names links' between ∧ d.walk links' between more = .ok q := by
  cases names with
  | nil => exact ⟨links, place, .done (directory_of_walk h hq hmore), h⟩
  | cons name names =>
      obtain ⟨here, ⟨empty, hrest⟩ | ⟨rfl, hrest⟩ | ⟨entry, ⟨before, target, rfl, there, hrest⟩ | hrest⟩⟩ :=
        walk_cons_ok h hq
      · obtain ⟨links', between, hnext, hlast⟩ := follows_of_walk hrest hq hmore
        exact ⟨links', between, .stay here empty hnext, hlast⟩
      · obtain ⟨links', between, hnext, hlast⟩ := follows_of_walk hrest hq hmore
        exact ⟨links', between, .up here hnext, hlast⟩
      · have hrest := (congrArg (d.walk before _) (List.append_assoc ..)).trans hrest
        obtain ⟨links', between, hnext, hlast⟩ := follows_of_walk hrest hq hmore
        exact ⟨links', between, .through here entry there hnext, hlast⟩
      · obtain ⟨links', between, hnext, hlast⟩ := follows_of_walk hrest hq hmore
        exact ⟨links', between, .down here entry hnext.start_directory hnext, hlast⟩
termination_by (links, names.length)

theorem eq_of_walk_idle {e : Entry} (h : d.walk links place [name] = .ok q) (hq : d.entry? q = some e)
    (hname : name = [] ∨ name = ['.']) : q = place := by
  obtain ⟨-, ⟨-, hstay⟩ | ⟨rfl, -⟩ | ⟨entry, -⟩⟩ := walk_cons_ok h hq
  · rw [walk] at hstay
    exact (Except.ok.inj hstay).symm
  · simp at hname
  · exact absurd hname (not_or.mpr ⟨entry.ne_nil, entry.ne_dot⟩)

namespace Follows

/-- The names lead to the same directory where the same directories and links are. -/
theorem of_kept (h : d.Follows links place names links' q)
    (hdirectory : ∀ p, d.entry? p = some .directory → d'.entry? p = some .directory)
    (hlink : ∀ p target, d.entry? p = some (.link target) → d'.entry? p = some (.link target)) :
    d'.Follows links place names links' q := by
  induction h with
  | done here => exact .done (hdirectory _ here)
  | stay here empty _ ih => exact .stay (hdirectory _ here) empty ih
  | up here _ ih => exact .up (hdirectory _ here) ih
  | down here entry there _ ih => exact .down (hdirectory _ here) entry (hdirectory _ there) ih
  | through here entry there _ ih => exact .through (hdirectory _ here) entry (hlink _ _ there) ih

theorem walk (h : d.Follows links place names links' q) : d.walk links place names = .ok q := by
  have hwalk := h.walk_append []
  rwa [List.append_nil, Disk.walk] at hwalk

/-- An empty piece or a dot at the end of a path leads no further. -/
theorem of_append_idle (hname : name = [] ∨ name = ['.'])
    (h : d.Follows links place (names ++ [name]) links' q) : ∃ links', d.Follows links place names links' q := by
  obtain ⟨links'', between, hnext, hlast⟩ := follows_of_walk h.walk h.directory (.inl (List.cons_ne_nil _ _))
  obtain rfl := eq_of_walk_idle hlast h.directory hname
  exact ⟨links'', hnext⟩

end Follows

theorem locate_eq {here : Place} {path : Text} (hne : path ≠ []) (hzero : '\x00' ∉ path) :
    d.locate here path = d.walk maxLinks (startOf here path) (Path.pieces path) := by
  have hcontains : ¬ path.contains '\x00' := by simpa using hzero
  rw [locate, if_neg (by simpa using hne), if_neg hcontains, startOf]

/-- The path `/` leads to the root. -/
theorem locate_root (d : Disk) (here : Place) : d.locate here ['/'] = .ok [] := by
  have hroot : d.entry? [] = some .directory := rfl
  have hpieces : d.Follows maxLinks [] (Path.pieces ['/']) maxLinks [] :=
    .stay hroot (.inl rfl) (.stay hroot (.inl rfl) (.done hroot))
  rw [locate_eq (by decide) (by decide)]
  exact hpieces.walk

theorem walk_of_locate {here : Place} {path : Text} (h : d.locate here path = .ok place) :
    path ≠ [] ∧ '\x00' ∉ path ∧ d.walk maxLinks (startOf here path) (Path.pieces path) = .ok place := by
  by_cases hne : path = []
  · simp [hne, locate] at h
  by_cases hzero : '\x00' ∈ path
  · simp [hne, hzero, locate] at h
  · exact ⟨hne, hzero, locate_eq hne hzero ▸ h⟩

/-- Walks tell disks apart by their entries only. -/
theorem walk_congr {d d' : Disk} (h : ∀ q, d.entry? q = d'.entry? q) (links : Nat) (place : Place)
    (names : List Text) : d.walk links place names = d'.walk links place names := by
  cases names with
  | nil => rw [walk, walk]
  | cons name rest =>
      rw [walk, walk, h place]
      split
      · split
        · exact walk_congr h _ _ _
        · split
          · exact walk_congr h _ _ _
          · split
            · rfl
            · rw [h (place ++ [name])]
              split
              · rfl
              · split
                · rfl
                · exact walk_congr h _ _ _
              · exact walk_congr h _ _ _
      · rfl
termination_by (links, names.length)

theorem locate_congr (h : ∀ q, d.entry? q = d'.entry? q) (here : Place) (path : Text) :
    d.locate here path = d'.locate here path := by
  simp only [locate, walk_congr h]

theorem IsEntryName.of_isName (h : Path.IsName name) : IsEntryName name :=
  ⟨h.ne_nil, h.ne_dot, h.ne_dots, h.short⟩

end Disk

namespace World

variable {w w' : World} {path : Text} {place : Place} {name : Text} {names : List Text}

/-- The path leads to a directory at the place; the empty path leads to where one is. -/
def Leads (w : World) (path : Text) (place : Place) : Prop :=
  (path = [] ∧ place = w.here ∨ w.disk.locate w.here path = .ok place) ∧
    w.disk.entry? place = some .directory

theorem leads_root (w : World) : w.Leads ['/'] [] := ⟨.inr (w.disk.locate_root w.here), rfl⟩

namespace Leads

theorem unique {place' : Place} (h : w.Leads path place) (h' : w.Leads path place') : place = place' := by
  rcases h.1 with ⟨rfl, hplace⟩ | hlocate <;> rcases h'.1 with ⟨hpath, hplace'⟩ | hlocate'
  · rw [hplace, hplace']
  · cases hlocate'
  · rw [hpath] at hlocate
    cases hlocate
  · exact Except.ok.inj (hlocate.symm.trans hlocate')

theorem follows (h : w.Leads path place) : '\x00' ∉ path ∧
    ∃ links, w.disk.Follows Disk.maxLinks (Disk.startOf w.here path) (Path.pieces path) links place := by
  obtain ⟨⟨rfl, rfl⟩ | hlocate, hentry⟩ := h
  · exact ⟨List.not_mem_nil, _, .stay hentry (.inl rfl) (.done hentry)⟩
  · obtain ⟨-, hzero, hwalk⟩ := Disk.walk_of_locate hlocate
    rw [← List.append_nil (Path.pieces path)] at hwalk
    obtain ⟨links, between, hfollows, hend⟩ := Disk.follows_of_walk hwalk hentry (.inr rfl)
    rw [Disk.walk] at hend
    cases hend
    exact ⟨hzero, links, hfollows⟩

/-- A name joined to a path comes after names that lead where the path leads. -/
theorem exists_names_join (h : w.Leads path place) (hne : name ≠ []) (hslash : '/' ∉ name)
    (hzero : '\x00' ∉ name) : Path.join path name ≠ [] ∧ '\x00' ∉ Path.join path name ∧
      ∃ names links, Path.pieces (Path.join path name) = names ++ [name] ∧
        w.disk.Follows Disk.maxLinks (Disk.startOf w.here (Path.join path name)) names links place := by
  obtain ⟨hzero', links, hfollows⟩ := h.follows
  rcases Path.join_eq hslash path with ⟨rfl, hjoin⟩ | ⟨q, rfl, hjoin⟩ | ⟨hpath, hjoin⟩
  · have hstart : Disk.startOf w.here name = w.here :=
      if_neg fun hhead => hslash (List.mem_of_mem_head? hhead)
    have hplace : place = w.here := by
      rcases h.1 with ⟨-, hplace⟩ | hlocate
      · exact hplace
      · simp [Disk.locate] at hlocate
    rw [hjoin, hstart, ← hplace]
    exact ⟨hne, hzero, [], Disk.maxLinks, Path.pieces_of_not_mem hslash, .done h.2⟩
  · have hstart : Disk.startOf w.here (q ++ '/' :: name) = Disk.startOf w.here (q ++ ['/']) := by
      cases q <;> simp [Disk.startOf]
    rw [Path.pieces_append_slash] at hfollows
    obtain ⟨links', hbefore⟩ := hfollows.of_append_idle (.inl rfl)
    rw [hjoin]
    refine ⟨by simp, by simpa [hzero] using hzero', Path.pieces q, links', ?_, hstart ▸ hbefore⟩
    rw [Path.pieces_append_slash, Path.pieces_of_not_mem hslash]
  · have hstart : Disk.startOf w.here (path ++ '/' :: name) = Disk.startOf w.here path := by
      rw [Disk.startOf, Disk.startOf, List.head?_append_of_ne_nil _ hpath]
    rw [hjoin]
    refine ⟨by simp, by simpa [hzero] using hzero', Path.pieces path, links, ?_, hstart ▸ hfollows⟩
    rw [Path.pieces_append_slash, Path.pieces_of_not_mem hslash]

/-- A name joined to a path is looked up where the path leads. -/
theorem walk_join (h : w.Leads path place) (hne : name ≠ []) (hslash : '/' ∉ name)
    (hzero : '\x00' ∉ name) :
    ∃ links, w.disk.locate w.here (Path.join path name) = w.disk.walk links place [name] := by
  obtain ⟨hjoin, hzero', names, links, hpieces, hfollows⟩ := h.exists_names_join hne hslash hzero
  exact ⟨links, by rw [Disk.locate_eq hjoin hzero', hpieces, hfollows.walk_append]⟩

/-- A name joined to a path leads into the directory, whether or not there is anything yet. -/
theorem locate_join (h : w.Leads path place) (hname : Path.IsName name)
    (hlink : ∀ target, w.disk.entry? (place ++ [name]) ≠ some (.link target)) :
    w.disk.locate w.here (Path.join path name) = .ok (place ++ [name]) := by
  obtain ⟨links, hlocate⟩ := h.walk_join hname.ne_nil hname.not_slash hname.not_zero
  have hentry := Disk.IsEntryName.of_isName hname
  rw [hlocate, Disk.walk, h.2]
  simp only [List.isEmpty_iff, hentry.ne_nil, hentry.ne_dot, hentry.ne_dots, decide_false, Bool.or_false,
    Nat.not_lt.mpr hentry.short, if_false]
  split
  · rfl
  · next target htarget => exact absurd htarget (hlink target)
  · rw [Disk.walk]

/-- A name by which something is found is one that directories can list, dots aside. -/
theorem isName_of_locate_join (h : w.Leads path place) (hslash : '/' ∉ name) (hzero : '\x00' ∉ name)
    (hne : name ≠ []) (hdot : name ≠ ['.']) (hdots : name ≠ ['.', '.']) {q : Place} {e : Entry}
    (hlocate : w.disk.locate w.here (Path.join path name) = .ok q) (hq : w.disk.entry? q = some e) :
    Path.IsName name := by
  obtain ⟨links, hwalk⟩ := h.walk_join hne hslash hzero
  obtain ⟨-, ⟨hstay, -⟩ | ⟨hup, -⟩ | ⟨entry, -⟩⟩ := Disk.walk_cons_ok (hwalk.symm.trans hlocate) hq
  · exact absurd hstay (not_or.mpr ⟨hne, hdot⟩)
  · exact absurd hup hdots
  · exact ⟨hne, hdot, hdots, hslash, hzero, entry.short⟩

theorem join (h : w.Leads path place) (hname : Path.IsName name)
    (hentry : w.disk.entry? (place ++ [name]) = some .directory) :
    w.Leads (Path.join path name) (place ++ [name]) :=
  ⟨.inr (h.locate_join hname (by simp [hentry])), hentry⟩

theorem read_join {content : Bytes} {executable : Bool} (h : w.Leads path place) (hname : Path.IsName name)
    (hentry : w.disk.entry? (place ++ [name]) = some (.file content executable)) :
    w.disk.read w.here (Path.join path name) = .ok content := by
  have hlocate := h.locate_join hname (by simp [hentry])
  simp only [Disk.read, Disk.entryAt, hlocate, hentry]

theorem readText_join {s : Text} {executable : Bool} (h : w.Leads path place) (hname : Path.IsName name)
    (hentry : w.disk.entry? (place ++ [name]) = some (.file (Utf8.encode s) executable)) :
    w.readText (Path.join path name) = .ok s := by
  simp only [readText, Disk.readText, h.read_join hname hentry, Utf8.decode?_encode]

/-- The names of directories below a path lead down to them. -/
theorem foldl_join (htree : w.disk.IsTree) (h : w.Leads path place)
    (hentry : w.disk.entry? (place ++ names) = some .directory) :
    w.Leads (names.foldl Path.join path) (place ++ names) := by
  induction names using List.reverseRecOn with
  | nil => simpa using h
  | append_singleton names name ih =>
      rw [← List.append_assoc] at hentry ⊢
      have hlast := htree.inside hentry
      rw [List.foldl_append]
      exact (ih hlast.2).join hlast.1 hentry

/-- A path leads to the same directory when no directory and no link goes away. -/
theorem of_kept (h : w.Leads path place) (hhere : w'.here = w.here)
    (hdirectory : ∀ p, w.disk.entry? p = some .directory → w'.disk.entry? p = some .directory)
    (hlink : ∀ p target, w.disk.entry? p = some (.link target) →
      w'.disk.entry? p = some (.link target)) : w'.Leads path place := by
  refine ⟨?_, hdirectory _ h.2⟩
  obtain ⟨hzero, links, hfollows⟩ := h.follows
  rcases h.1 with ⟨hpath, hplace⟩ | hlocate
  · exact .inl ⟨hpath, hplace.trans hhere.symm⟩
  · have hne : path ≠ [] := by
      rintro rfl
      simp [Disk.locate] at hlocate
    right
    rw [Disk.locate_eq hne hzero, hhere, (hfollows.of_kept hdirectory hlink).walk]

end Leads

end World

end Crosscheck
