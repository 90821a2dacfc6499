import Crosscheck.Proofs.Machine.Walk
/-!
# What a path comes by

Walking a path looks at some places of the disk and at no others. Two disks with the same entries at these
places lead the path to the same place, so entries at other places can be taken away without any difference.
Which places are looked at is a matter of directories and links: at a file a walk ends as it does at nothing.
-/

namespace Crosscheck

namespace Disk

variable {d d' : Disk} {links links' : Nat} {place q : Place} {name target : Text}
  {names more rest : List Text} {e : Entry}

/-- The directory or link that is at a place. -/
def way? (d : Disk) (place : Place) : Option Entry :=
  match d.entry? place with
  | some .directory => some .directory
  | some (.link target) => some (.link target)
  | _ => none

theorem way?_eq_directory : d.way? place = some .directory ↔ d.entry? place = some .directory := by
  rw [way?]
  split <;> simp_all

theorem way?_eq_link : d.way? place = some (.link target) ↔ d.entry? place = some (.link target) := by
  rw [way?]
  split <;> simp_all

theorem way?_congr (h : d'.entry? place = d.entry? place) : d'.way? place = d.way? place := by
  rw [way?, way?, h]

/-! ## Single steps -/

/-- What the first name of a walk comes to. -/
inductive Turn
  | fails (fault : Fault)
  | goes (q : Place)
  | follows (target : Text)
  /-- There is a file of that name, or nothing yet. -/
  | arrives

/-- What a name comes to at a place. -/
def turn (d : Disk) (place : Place) (name : Text) : Turn :=
  match d.way? place with
  | some .directory =>
    if name = [] ∨ name = ['.'] then .goes place
    else if name = ['.', '.'] then .goes place.dropLast
    else if 255 < (Utf8.encode name).length then .fails .nameTooLong
    else match d.way? (place ++ [name]) with
      | some .directory => .goes (place ++ [name])
      | some (.link target) => .follows target
      | _ => .arrives
  | _ => .fails .notDirectory

/-- The end of a walk that arrives. -/
def arrival (d : Disk) (place : Place) (rest : List Text) : Except Fault Place :=
  match d.entry? place with
  | none => if rest.all (·.isEmpty) then .ok place else .error .notFound
  | some _ => if rest.isEmpty then .ok place else .error .notDirectory

theorem eq_of_arrival (h : d.arrival place rest = .ok q) : q = place := by
  rw [arrival] at h
  split at h <;> split at h <;> cases h <;> rfl

theorem walk_cons (d : Disk) (links : Nat) (place : Place) (name : Text) (rest : List Text) :
    d.walk links place (name :: rest) = match d.turn place name with
      | .fails fault => .error fault
      | .goes q => d.walk links q rest
      | .follows target =>
        match links with
        | 0 => .error .tooManyLinks
        | links + 1 => d.walk links (startOf place target) (Path.pieces target ++ rest)
      | .arrives => d.arrival (place ++ [name]) rest := by
  have hfile : ∀ {e : Entry}, d.entry? (place ++ [name]) = some e → e ≠ .directory →
      d.walk links (place ++ [name]) rest = d.arrival (place ++ [name]) rest := by
    intro e hentry he
    rw [arrival, hentry]
    cases rest with
    | nil => rw [walk]; rfl
    | cons n rest =>
        rw [walk, hentry]
        cases e with
        | directory => exact absurd rfl he
        | _ => rfl
  rw [walk, turn, way?]
  cases d.entry? place with
  | none => rfl
  | some here =>
      cases here with
      | directory =>
          simp only [List.isEmpty_iff, Bool.or_eq_true, decide_eq_true_eq]
          split
          · rfl
          · split
            · rfl
            · split
              · rfl
              · rw [way?]
                cases hentry : d.entry? (place ++ [name]) with
                | none => simp only [arrival, hentry]
                | some e =>
                    cases e with
                    | directory => rfl
                    | link target => rfl
                    | _ => exact hfile hentry (by simp)
      | _ => rfl

theorem turn_eq (here : d.entry? place = some .directory) (entry : IsEntryName name) :
    d.turn place name = match d.way? (place ++ [name]) with
      | some .directory => .goes (place ++ [name])
      | some (.link target) => .follows target
      | _ => .arrives := by
  simp only [turn, way?_eq_directory.mpr here, entry.ne_nil, entry.ne_dot, entry.ne_dots, or_false, if_false,
    Nat.not_lt.mpr entry.short]

theorem turn_stay (here : d.entry? place = some .directory) (empty : name = [] ∨ name = ['.']) :
    d.turn place name = .goes place := by
  rw [turn, way?_eq_directory.mpr here]
  exact if_pos empty

theorem turn_up (here : d.entry? place = some .directory) :
    d.turn place ['.', '.'] = .goes place.dropLast := by
  rw [turn, way?_eq_directory.mpr here]
  rfl

/-- The ways that a name can be taken. -/
theorem turn_cases (d : Disk) (place : Place) (name : Text) :
    (∃ fault, d.turn place name = .fails fault) ∨ d.entry? place = some .directory ∧
      ((name = [] ∨ name = ['.']) ∧ d.turn place name = .goes place ∨
        name = ['.', '.'] ∧ d.turn place name = .goes place.dropLast ∨ IsEntryName name) := by
  rw [turn]
  split
  · next here =>
    split
    · next hstay => exact .inr ⟨way?_eq_directory.mp here, .inl ⟨hstay, rfl⟩⟩
    · next hstay =>
      split
      · next hup => exact .inr ⟨way?_eq_directory.mp here, .inr (.inl ⟨hup, rfl⟩)⟩
      · next hup =>
        split
        · exact .inl ⟨_, rfl⟩
        · next hshort =>
          rw [not_or] at hstay
          exact .inr ⟨way?_eq_directory.mp here, .inr (.inr ⟨hstay.1, hstay.2, hup, by omega⟩)⟩
  · exact .inl ⟨_, rfl⟩

theorem turn_goes (h : d.turn place name = .goes q) : d.entry? place = some .directory ∧
    ((name = [] ∨ name = ['.']) ∧ q = place ∨ name = ['.', '.'] ∧ q = place.dropLast ∨
      q = place ++ [name] ∧ d.entry? q = some .directory) := by
  obtain ⟨fault, hfails⟩ | ⟨here, ⟨hname, hstay⟩ | ⟨hname, hup⟩ | entry⟩ := turn_cases d place name
  · rw [hfails] at h
    cases h
  · rw [hstay] at h
    cases h
    exact ⟨here, .inl ⟨hname, rfl⟩⟩
  · rw [hup] at h
    cases h
    exact ⟨here, .inr (.inl ⟨hname, rfl⟩)⟩
  · rw [turn_eq here entry] at h
    split at h <;> cases h
    next there => exact ⟨here, .inr (.inr ⟨rfl, way?_eq_directory.mp there⟩)⟩

theorem turn_other (h : (∃ target, d.turn place name = .follows target) ∨ d.turn place name = .arrives) :
    d.entry? place = some .directory ∧ IsEntryName name := by
  obtain ⟨fault, hother⟩ | ⟨here, ⟨-, hother⟩ | ⟨-, hother⟩ | entry⟩ := turn_cases d place name
  · simp [hother] at h
  · simp [hother] at h
  · simp [hother] at h
  · exact ⟨here, entry⟩

theorem turn_follows : d.turn place name = .follows target ↔ d.entry? place = some .directory ∧
    IsEntryName name ∧ d.entry? (place ++ [name]) = some (.link target) := by
  constructor
  · intro h
    obtain ⟨here, entry⟩ := turn_other (.inl ⟨target, h⟩)
    rw [turn_eq here entry] at h
    split at h <;> cases h
    next there => exact ⟨here, entry, way?_eq_link.mp there⟩
  · rintro ⟨here, entry, there⟩
    rw [turn_eq here entry, way?_eq_link.mpr there]

theorem turn_congr (here : d'.way? place = d.way? place)
    (there : d.entry? place = some .directory → IsEntryName name →
      d'.way? (place ++ [name]) = d.way? (place ++ [name])) : d'.turn place name = d.turn place name := by
  rw [turn, turn, here]
  split
  · next hdirectory =>
    split
    · rfl
    · next hstay =>
      split
      · rfl
      · next hup =>
        split
        · rfl
        · next hshort =>
          rw [not_or] at hstay
          rw [there (way?_eq_directory.mp hdirectory) ⟨hstay.1, hstay.2, hup, by omega⟩]
  · rfl

/-! ## The places on the way -/

/-- The places that are looked at when names are walked from a place, the end included. -/
def looked (d : Disk) (links : Nat) (place : Place) : List Text → List Place
  | [] => [place]
  | name :: rest =>
    match d.turn place name with
    | .fails _ => [place]
    | .goes q => place :: d.looked links q rest
    | .follows target =>
      match links with
      | 0 => [place, place ++ [name]]
      | links + 1 => place :: (place ++ [name]) ::
          d.looked links (startOf place target) (Path.pieces target ++ rest)
    | .arrives => [place, place ++ [name]]
termination_by names => (links, names.length)

theorem mem_looked_self (d : Disk) (links : Nat) (place : Place) (names : List Text) :
    place ∈ d.looked links place names := by
  fun_cases d.looked links place names <;> exact List.mem_cons_self

theorem mem_looked_next (here : d.entry? place = some .directory) (entry : IsEntryName name)
    (links : Nat) (rest : List Text) : place ++ [name] ∈ d.looked links place (name :: rest) := by
  rw [looked]
  split
  · next hturn =>
    rw [turn_eq here entry] at hturn
    split at hturn <;> cases hturn
  · next q hturn =>
    rw [turn_eq here entry] at hturn
    split at hturn <;> cases hturn
    exact List.mem_cons_of_mem _ (mem_looked_self ..)
  · split <;> exact List.mem_cons_of_mem _ List.mem_cons_self
  · exact List.mem_cons_of_mem _ List.mem_cons_self

/-- The entries that are looked at decide the way and where it ends. -/
theorem walk_of_agree {d d' : Disk} {links : Nat} {place : Place} {names : List Text}
    (h : ∀ q ∈ d.looked links place names, d'.entry? q = d.entry? q) :
    d'.walk links place names = d.walk links place names ∧
      d'.looked links place names = d.looked links place names := by
  cases names with
  | nil => exact ⟨by rw [walk, walk], by rw [looked, looked]⟩
  | cons name rest =>
      have hturn : d'.turn place name = d.turn place name :=
        turn_congr (way?_congr (h _ (mem_looked_self ..))) fun here entry =>
          way?_congr (h _ (mem_looked_next here entry ..))
      rw [walk_cons, walk_cons, looked, looked, hturn]
      rw [looked] at h
      cases heq : d.turn place name with
      | fails fault => exact ⟨rfl, rfl⟩
      | goes q =>
          rw [heq] at h
          have hnext := walk_of_agree fun x hx => h x (List.mem_cons_of_mem _ hx)
          exact ⟨hnext.1, congrArg _ hnext.2⟩
      | follows target =>
          rw [heq] at h
          cases links with
          | zero => exact ⟨rfl, rfl⟩
          | succ links =>
              have hnext := walk_of_agree fun x hx =>
                h x (List.mem_cons_of_mem _ (List.mem_cons_of_mem _ hx))
              exact ⟨hnext.1, by simp only [hnext.2]⟩
      | arrives =>
          rw [heq] at h
          have hend := h (place ++ [name]) (List.mem_cons_of_mem _ List.mem_cons_self)
          exact ⟨by simp only [arrival, hend], rfl⟩
termination_by (links, names.length)

/-- The same directories and links make the same way. -/
theorem looked_congr {d d' : Disk} (h : ∀ q, d'.way? q = d.way? q) (links : Nat) (place : Place)
    (names : List Text) : d'.looked links place names = d.looked links place names := by
  cases names with
  | nil => rw [looked, looked]
  | cons name rest =>
      rw [looked, looked, turn_congr (h place) fun _ _ => h _]
      split
      · rfl
      · rw [looked_congr h]
      · split
        · rfl
        · rw [looked_congr h]
      · rfl
termination_by (links, names.length)

/-- A walk that ends somewhere has looked there, and at places where there is something. -/
theorem looked_of_walk {d : Disk} {links : Nat} {place q : Place} {names : List Text}
    (h : d.walk links place names = .ok q) : q ∈ d.looked links place names ∧
      ∀ x ∈ d.looked links place names, x = q ∨ d.entry? x ≠ none := by
  cases names with
  | nil =>
      rw [walk] at h
      cases h
      rw [looked]
      simp
  | cons name rest =>
      rw [walk_cons] at h
      rw [looked]
      cases hturn : d.turn place name with
      | fails fault =>
          rw [hturn] at h
          cases h
      | goes next =>
          rw [hturn] at h
          obtain ⟨hend, hway⟩ := looked_of_walk h
          refine ⟨List.mem_cons_of_mem _ hend, List.forall_mem_cons.mpr ⟨.inr ?_, hway⟩⟩
          simp [(turn_goes hturn).1]
      | follows target =>
          obtain ⟨here, -, there⟩ := turn_follows.mp hturn
          rw [hturn] at h
          cases links with
          | zero => cases h
          | succ links =>
              obtain ⟨hend, hway⟩ := looked_of_walk h
              refine ⟨List.mem_cons_of_mem _ (List.mem_cons_of_mem _ hend), ?_⟩
              simp only [List.forall_mem_cons]
              exact ⟨.inr (by simp [here]), .inr (by simp [there]), hway⟩
      | arrives =>
          rw [hturn] at h
          obtain rfl := eq_of_arrival h
          simp [(turn_other (.inr hturn)).1]
termination_by (links, names.length)

/-- On the way that names lead there is something at every place. -/
theorem Follows.looked_append (h : d.Follows links place names links' q) {x : Place}
    (hx : x ∈ d.looked links place (names ++ more)) : d.entry? x ≠ none ∨ x ∈ d.looked links' q more := by
  induction h with
  | done here => exact .inr hx
  | stay here empty _ ih =>
      rw [List.cons_append, looked, turn_stay here empty] at hx
      rcases List.mem_cons.mp hx with rfl | hx
      · exact .inl (by simp [here])
      · exact ih hx
  | up here _ ih =>
      rw [List.cons_append, looked, turn_up here] at hx
      rcases List.mem_cons.mp hx with rfl | hx
      · exact .inl (by simp [here])
      · exact ih hx
  | down here entry there _ ih =>
      rw [List.cons_append, looked, turn_eq here entry, way?_eq_directory.mpr there] at hx
      rcases List.mem_cons.mp hx with rfl | hx
      · exact .inl (by simp [here])
      · exact ih hx
  | through here entry there _ ih =>
      rw [List.cons_append, looked, turn_follows.mpr ⟨here, entry, there⟩] at hx
      rw [List.append_assoc] at ih
      rcases List.mem_cons.mp hx with rfl | hx
      · exact .inl (by simp [here])
      · rcases List.mem_cons.mp hx with rfl | hx
        · exact .inl (by simp [there])
        · exact ih hx

/-- At the end of the way a name is looked up in the directory. -/
theorem looked_single (hdots : name ≠ ['.', '.'])
    (hlink : ∀ target, d.entry? (place ++ [name]) ≠ some (.link target)) {x : Place}
    (hx : x ∈ d.looked links place [name]) : x = place ∨ x = place ++ [name] := by
  rw [looked] at hx
  cases hturn : d.turn place name with
  | fails fault =>
      rw [hturn] at hx
      exact .inl (List.mem_singleton.mp hx)
  | goes next =>
      rw [hturn] at hx
      simp only [looked, List.mem_cons, List.not_mem_nil, or_false] at hx
      rcases hx with rfl | rfl
      · exact .inl rfl
      · obtain ⟨-, ⟨-, hnext⟩ | ⟨hname, -⟩ | ⟨hnext, -⟩⟩ := turn_goes hturn
        · exact .inl hnext
        · exact absurd hname hdots
        · exact .inr hnext
  | follows target => exact absurd (turn_follows.mp hturn).2.2 (hlink target)
  | arrives =>
      rw [hturn] at hx
      simpa using hx

/-- However many links may be followed, the names lead nowhere else than where they lead. -/
theorem Follows.eq_of_walk (h : d.Follows links place names links' q) {n : Nat}
    (hmore : ∀ name ∈ more, name = []) {x : Place} (hwalk : d.walk n place (names ++ more) = .ok x) :
    x = q := by
  induction h generalizing n with
  | @done _ place here =>
      induction more with
      | nil =>
          rw [List.append_nil, Disk.walk] at hwalk
          exact (Except.ok.inj hwalk).symm
      | cons name more ih =>
          rw [List.forall_mem_cons] at hmore
          rw [List.nil_append, walk_cons, turn_stay here (.inl hmore.1)] at hwalk
          exact ih hmore.2 hwalk
  | stay here empty _ ih =>
      rw [List.cons_append, walk_cons, turn_stay here empty] at hwalk
      exact ih hwalk
  | up here _ ih =>
      rw [List.cons_append, walk_cons, turn_up here] at hwalk
      exact ih hwalk
  | down here entry there _ ih =>
      rw [List.cons_append, walk_cons, turn_eq here entry, way?_eq_directory.mpr there] at hwalk
      exact ih hwalk
  | through here entry there _ ih =>
      rw [List.cons_append, walk_cons, turn_follows.mpr ⟨here, entry, there⟩] at hwalk
      cases n with
      | zero => cases hwalk
      | succ n =>
          rw [List.append_assoc] at ih
          exact ih hwalk

/-! ## Taking entries away -/

/-- The disk without what is at some places. -/
def without (d : Disk) (taken : List Place) : Disk := ⟨d.entries.filter (·.1 ∉ taken)⟩

variable {taken : List Place}

theorem entries_without (d : Disk) (taken : List Place) :
    (d.without taken).entries = d.entries.filter (·.1 ∉ taken) := rfl

theorem lookup_filter (h : q ∉ taken) (entries : List (Place × Entry)) :
    (entries.filter (·.1 ∉ taken)).lookup q = entries.lookup q := by
  induction entries with
  | nil => rfl
  | cons pair entries ih =>
      obtain ⟨p, e⟩ := pair
      by_cases hp : p ∈ taken
      · have hbeq : (q == p) = false := by
          rw [beq_eq_false_iff_ne]
          rintro rfl
          exact h hp
        rw [List.filter_cons_of_neg (by simpa using hp), ih, List.lookup_cons, hbeq]
      · rw [List.filter_cons_of_pos (by simpa using hp), List.lookup_cons, List.lookup_cons, ih]

theorem entry?_without (h : q ∉ taken) : Disk.entry? (d.without taken) q = d.entry? q := by
  by_cases hq : q = []
  · rw [hq, entry?_root, entry?_root]
  · rw [entry?_of_ne_nil hq, entry?_of_ne_nil hq, entries_without, lookup_filter h]

theorem entry?_without_of_mem (h : q ∈ taken) (hq : q ≠ []) : Disk.entry? (d.without taken) q = none := by
  rw [entry?_of_ne_nil hq]
  refine lookup_eq_none fun hmem => ?_
  obtain ⟨pair, hpair, rfl⟩ := List.mem_map.mp hmem
  exact of_decide_eq_true (List.mem_filter.mp hpair).2 h

/-- What is not looked at can be taken away. -/
theorem walk_without (h : ∀ q ∈ d.looked links place names, q ∉ taken) :
    (d.without taken).walk links place names = d.walk links place names ∧
      (d.without taken).looked links place names = d.looked links place names :=
  walk_of_agree fun q hq => entry?_without (h q hq)

theorem walk_of_without (h : ∀ q ∈ (d.without taken).looked links place names, q ∉ taken) :
    d.walk links place names = (d.without taken).walk links place names ∧
      d.looked links place names = (d.without taken).looked links place names :=
  walk_of_agree fun q hq => (entry?_without (h q hq)).symm

theorem put_without (h : q ∉ taken) (d : Disk) (e : Entry) :
    (d.put q e).without taken = (d.without taken).put q e := by
  have hmem : q ∈ (d.without taken).places ↔ q ∈ d.places := by
    simp only [places, without, List.mem_map, List.mem_filter]
    constructor
    · rintro ⟨pair, ⟨hpair, -⟩, heq⟩
      exact ⟨pair, hpair, heq⟩
    · rintro ⟨pair, hpair, rfl⟩
      exact ⟨pair, ⟨hpair, by simpa using h⟩, rfl⟩
  suffices hentries : ((d.put q e).without taken).entries = ((d.without taken).put q e).entries from
    congrArg Disk.mk hentries
  by_cases hq : q ∈ d.places
  · have hkeep : ∀ pair : Place × Entry,
        decide ((if pair.1 = q then (q, e) else pair).1 ∉ taken) = decide (pair.1 ∉ taken) := by
      intro pair
      split
      · next heq => rw [heq]
      · rfl
    rw [put_of_mem (hmem.mpr hq), entries_without, entries_without, put_of_mem hq, List.filter_map]
    simp only [Function.comp_def, hkeep]
  · rw [put_of_not_mem (mt hmem.mp hq), entries_without, entries_without, put_of_not_mem hq,
      List.filter_append, List.filter_cons_of_pos (by simpa using h), List.filter_nil]

theorem children_without (d : Disk) (place : Place) : (d.without taken).children place =
    (d.children place).filter fun pair => place ++ [pair.1] ∉ taken := by
  rw [children_eq, children_eq, entries_without, List.filterMap_filter, List.filter_filterMap]
  refine List.filterMap_congr fun pair _ => ?_
  cases hname : nameIn place pair.1 with
  | none => simp
  | some name => simp [nameIn_eq_some.mp hname, Option.filter]

/-! ## Links to directories -/

/-- What is at each of the places is a link that leads to a directory. -/
def LinksToDirectories (d : Disk) (taken : List Place) : Prop :=
  ∀ q ∈ taken, ∃ place name target links directory, q = place ++ [name] ∧ Path.IsName name ∧
    d.entry? q = some (.link target) ∧
      d.Follows maxLinks (startOf place target) (Path.pieces target) links directory

namespace LinksToDirectories

theorem ne_nil (h : d.LinksToDirectories taken) (hq : q ∈ taken) : q ≠ [] := by
  obtain ⟨place, name, -, -, -, rfl, -⟩ := h q hq
  simp

theorem of_mem (h : d.LinksToDirectories taken) (hq : place ++ [name] ∈ taken) : Path.IsName name ∧
    ∃ target links directory, d.entry? (place ++ [name]) = some (.link target) ∧
      d.Follows maxLinks (startOf place target) (Path.pieces target) links directory := by
  obtain ⟨place', name', target, links, directory, heq, hname, hlink, hfollows⟩ := h _ hq
  obtain ⟨rfl, hsame⟩ := List.append_inj' heq rfl
  cases hsame
  exact ⟨hname, target, links, directory, hlink, hfollows⟩

theorem not_mem (h : d.LinksToDirectories taken) (hq : d.entry? q = some .directory) : q ∉ taken := by
  intro hmem
  obtain ⟨-, -, target, -, -, -, -, hlink, -⟩ := h q hmem
  rw [hq] at hlink
  cases hlink

theorem of_ways (h : d.LinksToDirectories taken) (hways : ∀ q, d'.way? q = d.way? q) :
    d'.LinksToDirectories taken := by
  intro q hq
  obtain ⟨place, name, target, links, directory, heq, hname, hlink, hfollows⟩ := h q hq
  refine ⟨place, name, target, links, directory, heq, hname, ?_, hfollows.of_kept ?_ ?_⟩
  · rwa [← way?_eq_link, hways, way?_eq_link]
  · intro p hp
    rwa [← way?_eq_directory, hways, way?_eq_directory]
  · intro p target hp
    rwa [← way?_eq_link, hways, way?_eq_link]

/-- A name that is taken away is the last one of a walk, and the link at it leads on to a directory. -/
theorem directory_of_taken (h : d.LinksToDirectories taken) {x : Place} (hplace : place ∉ taken)
    (htaken : place ++ [name] ∈ taken) (hend : (d.without taken).walk links place (name :: rest) = .ok q)
    (hwalk : d.walk links place (name :: rest) = .ok x) : d.entry? x = some .directory := by
  obtain ⟨hname, target, _, directory, hlink, hfollows⟩ := h.of_mem htaken
  have hentry := IsEntryName.of_isName hname
  rw [walk_cons] at hend hwalk
  obtain ⟨fault, hfails⟩ | ⟨here, -⟩ := d.turn_cases place name
  · rw [hfails] at hwalk
    cases hwalk
  · have hnone : Disk.entry? (d.without taken) (place ++ [name]) = none :=
      entry?_without_of_mem htaken (h.ne_nil htaken)
    have harrives : (d.without taken).turn place name = .arrives := by
      rw [turn_eq ((entry?_without hplace).trans here) hentry, way?, hnone]
    rw [harrives] at hend
    rw [turn_follows.mpr ⟨here, hentry, hlink⟩] at hwalk
    simp only [arrival, hnone] at hend
    split at hend
    · next hrest =>
      have hempty : ∀ n ∈ rest, n = [] := by simpa using hrest
      cases links with
      | zero => cases hwalk
      | succ links => exact hfollows.eq_of_walk hempty hwalk ▸ hfollows.directory
    · cases hend

/-- Where a walk ends at a place that is taken away, it leads on to a directory while the link is there. -/
theorem directory_of_walk (h : d.LinksToDirectories taken)
    (hparent : ∀ q, d.entry? q = some .directory → d.entry? q.dropLast = some .directory)
    {links : Nat} {place : Place} {names : List Text} {q x : Place} (hplace : place ∉ taken)
    (hend : (d.without taken).walk links place names = .ok q) (hq : q ∈ taken)
    (hwalk : d.walk links place names = .ok x) : d.entry? x = some .directory := by
  cases names with
  | nil =>
      rw [walk] at hend
      cases hend
      exact absurd hq hplace
  | cons name rest =>
      have hhere := way?_congr (entry?_without (d := d) hplace)
      by_cases htaken : place ++ [name] ∈ taken
      · exact h.directory_of_taken hplace htaken hend hwalk
      · have hturn : (d.without taken).turn place name = d.turn place name :=
          turn_congr hhere fun _ _ => way?_congr (entry?_without htaken)
        rw [walk_cons, hturn] at hend
        rw [walk_cons] at hwalk
        cases hd : d.turn place name with
        | fails fault =>
            rw [hd] at hend
            cases hend
        | goes next =>
            rw [hd] at hend hwalk
            obtain ⟨here, hnext⟩ := turn_goes hd
            refine directory_of_walk h hparent ?_ hend hq hwalk
            rcases hnext with ⟨-, rfl⟩ | ⟨-, rfl⟩ | ⟨-, hnext⟩
            · exact hplace
            · exact h.not_mem (hparent _ here)
            · exact h.not_mem hnext
        | follows target =>
            rw [hd] at hend hwalk
            cases links with
            | zero => cases hend
            | succ links =>
                refine directory_of_walk h hparent ?_ hend hq hwalk
                rw [startOf]
                split
                · exact h.not_mem d.entry?_root
                · exact hplace
        | arrives =>
            rw [hd] at hend
            obtain rfl := eq_of_arrival hend
            exact absurd hq htaken
termination_by (links, names.length)

end LinksToDirectories

end Disk

/-- A path to a name in a directory comes by nothing that is missing, that name apart. -/
theorem World.Leads.looked_join {w : World} {path name : Text} {place x : Place} (h : w.Leads path place)
    (hne : name ≠ []) (hdots : name ≠ ['.', '.']) (hslash : '/' ∉ name) (hzero : '\x00' ∉ name)
    (hlink : ∀ target, w.disk.entry? (place ++ [name]) ≠ some (.link target))
    (hx : x ∈ w.disk.looked Disk.maxLinks (Disk.startOf w.here (Path.join path name))
      (Path.pieces (Path.join path name))) : w.disk.entry? x ≠ none ∨ x = place ++ [name] := by
  obtain ⟨-, -, names, links, hpieces, hfollows⟩ := h.exists_names_join hne hslash hzero
  rw [hpieces] at hx
  rcases hfollows.looked_append hx with hentry | hx
  · exact .inl hentry
  · rcases Disk.looked_single hdots hlink hx with rfl | rfl
    · exact .inl (by simp [h.2])
    · exact .inr rfl

end Crosscheck
