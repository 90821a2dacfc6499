import Crosscheck.Machine.Disk
import Crosscheck.Proofs.Machine.Path
import Mathlib.Data.List.Induction
import Mathlib.Data.List.Nodup
/-!
# Disks that are trees

On a real disk everything but the root directory has a name in a directory. Then the files below a place are
found by going down from it, each exactly once, and putting a file somewhere changes nothing else.
-/

namespace Crosscheck.Disk

variable {d : Disk} {place q : Place} {e : Entry} {name : Text}

/-! ## Entries -/

section Lookup

variable {α β : Type} [BEq α] [LawfulBEq α] [DecidableEq α] {xs : List (α × β)} {a k : α} {b : β}

theorem lookup_eq_some_iff (h : (xs.map Prod.fst).Nodup) : xs.lookup a = some b ↔ (a, b) ∈ xs := by
  induction xs with
  | nil => simp
  | cons x xs ih =>
      obtain ⟨k, v⟩ := x
      rw [List.map_cons, List.nodup_cons] at h
      by_cases hk : a = k
      · subst hk
        have hout : ∀ b, (a, b) ∉ xs := fun b hb => h.1 (List.mem_map.mpr ⟨(a, b), hb, rfl⟩)
        simp [List.lookup_cons_self, hout, eq_comm]
      · have hbeq : (a == k) = false := by simp [hk]
        rw [List.lookup_cons, hbeq, ih h.2]
        simp [hk]

theorem lookup_replace (a k : α) (b : β) (xs : List (α × β)) :
    (xs.map fun x => if x.1 = a then (a, b) else x).lookup k =
      if k = a then (xs.lookup a).map fun _ => b else xs.lookup k := by
  induction xs with
  | nil => simp
  | cons x xs ih =>
      obtain ⟨k', v⟩ := x
      by_cases hk' : k' = a
      · subst hk'
        by_cases hk : k = k'
        · simp [hk]
        · have hbeq : (k == k') = false := by simp [hk]
          simpa [List.lookup_cons, hbeq, hk] using ih
      · have hbeq' : (a == k') = false := by simp [Ne.symm hk']
        by_cases hk : k = k'
        · subst hk
          simp [hk']
        · have hbeq : (k == k') = false := by simp [hk]
          simpa [List.lookup_cons, hbeq, hbeq', hk'] using ih

end Lookup

theorem entry?_root (d : Disk) : d.entry? [] = some .directory := rfl

theorem entry?_of_ne_nil (h : place ≠ []) : d.entry? place = d.entries.lookup place := by
  unfold entry?
  simp [h]

/-- The places at which there is something. -/
def places (d : Disk) : List Place := d.entries.map Prod.fst

theorem put_of_mem (h : place ∈ d.places) (e : Entry) :
    (d.put place e).entries = d.entries.map fun pair => if pair.1 = place then (place, e) else pair := by
  obtain ⟨pair, hpair, hplace⟩ := List.mem_map.mp h
  rw [put, if_pos (List.any_eq_true.mpr ⟨pair, hpair, decide_eq_true hplace⟩)]

theorem put_of_not_mem (h : place ∉ d.places) (e : Entry) :
    (d.put place e).entries = d.entries ++ [(place, e)] := by
  have hany : ¬ d.entries.any (·.1 = place) := fun hany => by
    obtain ⟨pair, hpair, hplace⟩ := List.any_eq_true.mp hany
    exact h (List.mem_map.mpr ⟨pair, hpair, of_decide_eq_true hplace⟩)
  rw [put, if_neg hany]

theorem places_put (d : Disk) (place : Place) (e : Entry) :
    (d.put place e).places = if place ∈ d.places then d.places else d.places ++ [place] := by
  split
  · next h =>
    rw [places, put_of_mem h, List.map_map]
    refine List.map_congr_left fun pair _ => ?_
    by_cases hpair : pair.1 = place <;> simp [hpair]
  · next h =>
    rw [places, put_of_not_mem h, List.map_append]
    rfl

theorem lookup_eq_none (h : place ∉ d.places) : d.entries.lookup place = none := by
  rw [List.lookup_eq_none_iff]
  intro pair hpair
  rw [bne_iff_ne]
  rintro rfl
  exact h (List.mem_map_of_mem hpair)

theorem entry?_put (h : place ≠ []) (d : Disk) (e : Entry) (q : Place) :
    Disk.entry? (d.put place e) q = if q = place then some e else d.entry? q := by
  by_cases hq : q = []
  · rw [hq, if_neg (Ne.symm h)]
    rfl
  rw [entry?_of_ne_nil hq, entry?_of_ne_nil hq]
  by_cases hmem : place ∈ d.places
  · rw [put_of_mem hmem, lookup_replace]
    have hsome : d.entries.lookup place ≠ none := fun hnone => by
      obtain ⟨pair, hpair, hplace⟩ := List.mem_map.mp hmem
      have hne := List.lookup_eq_none_iff.mp hnone pair hpair
      simp [hplace] at hne
    obtain ⟨old, hold⟩ := Option.ne_none_iff_exists'.mp hsome
    rw [hold]
    rfl
  · rw [put_of_not_mem hmem, List.lookup_append]
    by_cases hqp : q = place
    · simp [hqp, lookup_eq_none hmem]
    · have hbeq : (q == place) = false := by simp [hqp]
      simp [List.lookup_cons, hbeq, hqp]

/-- Everything on the disk has a name in a directory, and one name stands for one thing. -/
structure IsTree (d : Disk) : Prop where
  nodup : d.places.Nodup
  rooted : [] ∉ d.places
  inside : ∀ {place name e}, d.entry? (place ++ [name]) = some e →
    Path.IsName name ∧ d.entry? place = some .directory

namespace IsTree

theorem entry?_eq_some_iff (h : d.IsTree) (hplace : place ≠ []) :
    d.entry? place = some e ↔ (place, e) ∈ d.entries := by
  rw [entry?_of_ne_nil hplace, lookup_eq_some_iff h.nodup]

/-- What is on a disk does not depend on the order in which it lists its entries. -/
theorem entry?_of_perm {d' : Disk} (h : d.IsTree) (hperm : d'.entries.Perm d.entries) (q : Place) :
    d'.entry? q = d.entry? q := by
  by_cases hq : q = []
  · rw [hq, entry?_root, entry?_root]
  have hplaces : d'.places.Perm d.places := hperm.map _
  refine Option.ext fun e => ?_
  rw [entry?_of_ne_nil hq, entry?_of_ne_nil hq, lookup_eq_some_iff h.nodup,
    lookup_eq_some_iff (hplaces.nodup_iff.mpr h.nodup), hperm.mem_iff]

theorem of_perm {d' : Disk} (h : d.IsTree) (hperm : d'.entries.Perm d.entries) : d'.IsTree where
  nodup := (hperm.map Prod.fst).nodup_iff.mpr h.nodup
  rooted hmem := h.rooted ((hperm.map Prod.fst).mem_iff.mp hmem)
  inside hentry := by
    rw [h.entry?_of_perm hperm] at hentry ⊢
    exact h.inside hentry

/-- What something lies below is a directory. -/
theorem directory_of_below (h : d.IsTree) {names : Place} (hnames : names ≠ [])
    (hentry : d.entry? (place ++ names) = some e) : d.entry? place = some .directory := by
  induction names using List.reverseRecOn generalizing e with
  | nil => exact absurd rfl hnames
  | append_singleton names name ih =>
      rw [← List.append_assoc] at hentry
      have hdirectory := (h.inside hentry).2
      by_cases hnil : names = []
      · simpa [hnil] using hdirectory
      · exact ih hnil hdirectory

theorem isName_of_below (h : d.IsTree) {names : Place} (hentry : d.entry? (place ++ names) = some e) :
    ∀ name ∈ names, Path.IsName name := by
  induction names using List.reverseRecOn generalizing e with
  | nil => simp
  | append_singleton names name ih =>
      rw [← List.append_assoc] at hentry
      have hlast := h.inside hentry
      intro n hn
      rcases List.mem_append.mp hn with hn | hn
      · exact ih hlast.2 n hn
      · rw [List.mem_singleton.mp hn]
        exact hlast.1

/-- A disk stays a tree when a file is put into a directory, or over anything that is no directory. -/
theorem put (h : d.IsTree) (hname : Path.IsName name) (hplace : d.entry? place = some .directory)
    (hold : d.entry? (place ++ [name]) ≠ some .directory) (content : Bytes) (executable : Bool) :
    (d.put (place ++ [name]) (.file content executable)).IsTree where
  nodup := by
    rw [places_put]
    split
    · exact h.nodup
    · next hnone => exact h.nodup.append (List.nodup_singleton _) (List.disjoint_singleton.mpr hnone)
  rooted := by
    rw [places_put]
    split
    · exact h.rooted
    · simpa using h.rooted
  inside := by
    intro q n e hentry
    rw [entry?_put (by simp)] at hentry ⊢
    split at hentry
    · next heq =>
      obtain ⟨rfl, hn⟩ := List.append_inj' heq rfl
      cases hn
      rw [if_neg (by simp)]
      exact ⟨hname, hplace⟩
    · have hdirectory := h.inside hentry
      refine ⟨hdirectory.1, ?_⟩
      rw [if_neg]
      · exact hdirectory.2
      · rintro rfl
        exact hold hdirectory.2

end IsTree

theorem isTree_iff : d.IsTree ↔ d.places.Nodup ∧ ∀ place ∈ d.places, place ≠ [] ∧
    Path.IsName (place.getLast?.getD []) ∧ d.entry? place.dropLast = some .directory := by
  constructor
  · intro h
    refine ⟨h.nodup, fun place hplace => ?_⟩
    have hne : place ≠ [] := fun hnil => h.rooted (hnil ▸ hplace)
    obtain ⟨⟨_, e⟩, hmem, rfl⟩ := List.mem_map.mp hplace
    obtain ⟨before, name, heq⟩ := (List.eq_nil_or_concat' _).resolve_left hne
    have hentry := (h.entry?_eq_some_iff hne).mpr hmem
    rw [heq] at hentry ⊢
    simpa using h.inside hentry
  · rintro ⟨hnodup, hplaces⟩
    refine ⟨hnodup, fun hroot => (hplaces [] hroot).1 rfl, fun {place name e} hentry => ?_⟩
    by_cases hmem : place ++ [name] ∈ d.places
    · simpa using (hplaces _ hmem).2
    · rw [entry?_of_ne_nil (by simp), lookup_eq_none hmem] at hentry
      cases hentry

instance (d : Disk) : Decidable d.IsTree := decidable_of_iff' _ isTree_iff

/-! ## Files below a place -/

/-- The name that leads from a directory to a place, if the place is in it. -/
def nameIn (place p : Place) : Option Text :=
  match p.getLast? with
  | some name => if p.dropLast = place then some name else none
  | none => none

theorem nameIn_eq_some {p : Place} : nameIn place p = some name ↔ p = place ++ [name] := by
  induction p using List.reverseRecOn with
  | nil => simp [nameIn]
  | append_singleton p n => simp [nameIn, and_comm]

theorem children_eq (d : Disk) (place : Place) :
    d.children place = d.entries.filterMap fun pair => (nameIn place pair.1).map (·, pair.2) := by
  refine List.filterMap_congr fun pair _ => ?_
  obtain ⟨p, e⟩ := pair
  simp only [nameIn]
  cases p.getLast? with
  | none => rfl
  | some name =>
      simp only
      split <;> rfl

theorem mem_children_iff : (name, e) ∈ d.children place ↔ (place ++ [name], e) ∈ d.entries := by
  rw [children_eq, List.mem_filterMap]
  simp [nameIn_eq_some]

theorem mem_children_of_nodup (h : d.places.Nodup) :
    (name, e) ∈ d.children place ↔ d.entry? (place ++ [name]) = some e := by
  rw [mem_children_iff, entry?_of_ne_nil (by simp), lookup_eq_some_iff h]

namespace IsTree

theorem mem_children (h : d.IsTree) :
    (name, e) ∈ d.children place ↔ d.entry? (place ++ [name]) = some e :=
  mem_children_of_nodup h.nodup

theorem nodup_children (h : d.IsTree) (place : Place) : ((d.children place).map Prod.fst).Nodup := by
  have hnames : (d.children place).map Prod.fst = d.places.filterMap (nameIn place) := by
    rw [children_eq, places, List.map_filterMap, List.filterMap_map]
    refine List.filterMap_congr fun pair _ => ?_
    cases hname : nameIn place pair.1 <;> simp [hname]
  rw [hnames]
  refine h.nodup.filterMap fun p q name hp hq => ?_
  rw [nameIn_eq_some.mp hp, nameIn_eq_some.mp hq]

end IsTree

/-- The names that lead from a place down to each file below it. -/
def trailsBelow (d : Disk) : Nat → Place → List Place
  | 0, _ => []
  | depth + 1, place => (d.children place).flatMap fun (name, e) =>
    match e with
    | .directory => (trailsBelow d depth (place ++ [name])).map (name :: ·)
    | _ => [[name]]

variable {depth : Nat} {trail : Place}

theorem mem_trailsBelow_succ : trail ∈ d.trailsBelow (depth + 1) place ↔
    ∃ name e, (name, e) ∈ d.children place ∧
      (e = .directory ∧ (∃ rest ∈ d.trailsBelow depth (place ++ [name]), trail = name :: rest) ∨
        e ≠ .directory ∧ trail = [name]) := by
  rw [trailsBelow, List.mem_flatMap]
  constructor
  · rintro ⟨⟨name, e⟩, hmem, htrail⟩
    refine ⟨name, e, hmem, ?_⟩
    cases e with
    | directory =>
        obtain ⟨rest, hrest, rfl⟩ := List.mem_map.mp htrail
        exact .inl ⟨rfl, rest, hrest, rfl⟩
    | _ => exact .inr ⟨nofun, List.mem_singleton.mp htrail⟩
  · rintro ⟨name, e, hmem, ⟨rfl, rest, hrest, rfl⟩ | ⟨he, rfl⟩⟩
    · exact ⟨_, hmem, List.mem_map_of_mem hrest⟩
    · refine ⟨_, hmem, ?_⟩
      cases e with
      | directory => exact absurd rfl he
      | _ => exact List.mem_singleton_self _

namespace IsTree

theorem mem_trailsBelow (h : d.IsTree) :
    trail ∈ d.trailsBelow depth place ↔
      trail.length ≤ depth ∧ trail ≠ [] ∧ ∃ e, d.entry? (place ++ trail) = some e ∧ e ≠ .directory := by
  induction depth generalizing place trail with
  | zero => simp +contextual [trailsBelow]
  | succ depth ih =>
      rw [mem_trailsBelow_succ]
      constructor
      · rintro ⟨name, e, hmem, ⟨rfl, rest, hrest, rfl⟩ | ⟨he, rfl⟩⟩
        · obtain ⟨hlength, -, e, hentry, he⟩ := ih.mp hrest
          exact ⟨by simpa using hlength, by simp, e, by simpa using hentry, he⟩
        · exact ⟨by simp, by simp, e, h.mem_children.mp hmem, he⟩
      · rintro ⟨hlength, hne, e, hentry, he⟩
        obtain ⟨name, rest, rfl⟩ := List.exists_cons_of_ne_nil hne
        by_cases hrest : rest = []
        · subst hrest
          exact ⟨name, e, h.mem_children.mpr hentry, .inr ⟨he, rfl⟩⟩
        · rw [List.append_cons] at hentry
          have hdirectory := h.directory_of_below hrest hentry
          refine ⟨name, .directory, h.mem_children.mpr hdirectory, .inl ⟨rfl, rest, ?_, rfl⟩⟩
          exact ih.mpr ⟨by simpa using hlength, hrest, e, hentry, he⟩

theorem nodup_trailsBelow (h : d.IsTree) (depth : Nat) (place : Place) :
    (d.trailsBelow depth place).Nodup := by
  induction depth generalizing place with
  | zero => exact List.nodup_nil
  | succ depth ih =>
      have hhead : ∀ pair : Text × Entry, ∀ trail ∈ (match pair.2 with
          | .directory => (d.trailsBelow depth (place ++ [pair.1])).map (pair.1 :: ·)
          | _ => [[pair.1]]), trail.head? = some pair.1 := by
        rintro ⟨name, e⟩ trail htrail
        cases e with
        | directory =>
            obtain ⟨rest, -, rfl⟩ := List.mem_map.mp htrail
            rfl
        | _ => rw [List.mem_singleton.mp htrail]; rfl
      rw [trailsBelow, List.nodup_flatMap]
      constructor
      · rintro ⟨name, e⟩ -
        cases e with
        | directory => exact (ih _).map (List.cons_injective)
        | _ => exact List.nodup_singleton _
      · refine (List.pairwise_map.mp (h.nodup_children place)).imp fun {a b} hab => ?_
        intro trail ha hb
        exact hab (Option.some.inj ((hhead a trail ha).symm.trans (hhead b trail hb)))

end IsTree

theorem length_le_height (h : (place, e) ∈ d.entries) : place.length ≤ d.height := by
  have hgrows : ∀ (es : List (Place × Entry)) (n : Nat),
      n ≤ es.foldl (fun n pair => max n pair.1.length) n ∧
        ∀ pair ∈ es, pair.1.length ≤ es.foldl (fun n pair => max n pair.1.length) n := by
    intro es
    induction es with
    | nil => simp
    | cons pair es ih =>
        intro n
        have hrest := ih (max n pair.1.length)
        refine ⟨Nat.le_trans (Nat.le_max_left _ _) hrest.1, ?_⟩
        rw [List.forall_mem_cons]
        exact ⟨Nat.le_trans (Nat.le_max_right _ _) hrest.1, hrest.2⟩
  exact (hgrows d.entries 0).2 _ h

theorem height_le {n : Nat} (h : ∀ pair ∈ d.entries, pair.1.length ≤ n) : d.height ≤ n := by
  suffices hfold : ∀ (es : List (Place × Entry)) (m : Nat), m ≤ n → (∀ pair ∈ es, pair.1.length ≤ n) →
      es.foldl (fun n pair => max n pair.1.length) m ≤ n from hfold d.entries 0 (Nat.zero_le n) h
  intro es
  induction es with
  | nil => exact fun m hm _ => hm
  | cons pair es ih =>
      intro m hm hes
      rw [List.forall_mem_cons] at hes
      exact ih _ (Nat.max_le.mpr ⟨hm, hes.1⟩) hes.2

end Crosscheck.Disk
