import Crosscheck.Config.Reader
import Crosscheck.Proofs.Json.Spelling
/-!
# A configuration over the defaults

An object that lists some of the settings of a configuration, in any order and among fields with unknown
keys, is read as the configuration that has these settings and the defaults otherwise. Any subset of the
keys may be listed, and under the key of the patch mode any subset of the rule groups.
-/

namespace Crosscheck

theorem PatchMode.ofGroups_enables (m : PatchMode) : ofGroups m.enables = m := rfl

namespace Config

open Json (Form)

/-! ## What an object lists -/

/-- The keys of a configuration. -/
inductive Key
  | sentinel | prelude | tags | branch | patch | importGuard
deriving DecidableEq

/-- The keys in their order. -/
def Key.all : List Key := [.sentinel, .prelude, .tags, .branch, .patch, .importGuard]

/-- A key as it is written. -/
def Key.text : Key → Text
  | .sentinel => "sentinel"
  | .prelude => "prelude"
  | .tags => "tags"
  | .branch => "branch"
  | .patch => "patch"
  | .importGuard => "self_import_guard"

/-- The fields are those given and others, in any order. The others have keys that are not known and values
that some text spells. -/
def Mixed (known : List Text) (given : List (Text × Form)) (fields : List (Option Text × Form)) : Prop :=
  ∃ others, fields.Perm (given.map (Prod.map some id) ++ others) ∧
    ∀ field ∈ others, (∃ key, field.1 = some key ∧ key ∉ known) ∧ field.2.Spelled

/-- A tag as an object with the kind of the tag as its only key. -/
def tagForm : Tag → Form
  | .literal s => .object [(some "literal".toList, .string (some s))]
  | .pattern s => .object [(some "pattern".toList, .string (some s))]

/-- A branch by its name. -/
def branchForm : Branch → Form
  | .primary => .string (some "primary".toList)
  | .alternate => .string (some "alternate".toList)

/-- The form gives the setting of a key. A patch mode gives only some of its groups. -/
def Gives (c : Config) (groups : List RuleGroup) : Key → Form → Prop
  | .sentinel, form => form = .string (some c.sentinel)
  | .prelude, form => form = .array (c.prelude.map fun line => .string (some line))
  | .tags, form => form = .array (c.tags.map tagForm)
  | .branch, form => form = branchForm c.branch
  | .patch, form => ∃ fields, form = .object fields ∧ Mixed (RuleGroup.all.map RuleGroup.key)
      (groups.map fun group => (group.key, .bool (c.patch.enables group))) fields
  | .importGuard, form => ∃ fields, form = .object fields ∧ Mixed ["from", "to"]
      [("from", .string (some c.importGuard.source)), ("to", .string (some c.importGuard.target))] fields

/-- The fields give the settings of these keys, each once, and of no other keys. -/
structure Lists (c : Config) (listed : List Key) (groups : List RuleGroup)
    (fields : List (Option Text × Form)) : Prop where
  nodup : listed.Nodup
  nodup_groups : groups.Nodup
  mixed : ∃ form : Key → Form, (∀ key ∈ listed, c.Gives groups key (form key)) ∧
    Mixed keys (listed.map fun key => (key.text, form key)) fields

/-- The configuration with some settings of another one and the defaults otherwise. -/
def overlay (c : Config) (listed : List Key) (groups : List RuleGroup) : Config where
  sentinel := if .sentinel ∈ listed then c.sentinel else default.sentinel
  prelude := if .prelude ∈ listed then c.prelude else default.prelude
  tags := if .tags ∈ listed then c.tags else default.tags
  branch := if .branch ∈ listed then c.branch else default.branch
  patch := .ofGroups fun group =>
    if .patch ∈ listed ∧ group ∈ groups then c.patch.enables group else default.patch.enables group
  importGuard := if .importGuard ∈ listed then c.importGuard else default.importGuard

/-! ## The values of known keys -/

variable {known : List Text} {given : List (Text × Form)} {fields : List (Option Text × Form)}

theorem lookup_eq_head?_filter {α β : Type} [BEq α] [LawfulBEq α] [DecidableEq α] (a : α)
    (xs : List (α × β)) :
    xs.lookup a = ((xs.filter (·.1 = a)).head?).map Prod.snd := by
  induction xs with
  | nil => rfl
  | cons x xs ih =>
      obtain ⟨b, y⟩ := x
      by_cases hb : b = a
      · simp [hb]
      · have hab : (a == b) = false := by simpa using Ne.symm hb
        rw [List.lookup_cons, hab, ih, List.filter_cons_of_neg (by simpa using hb)]

theorem filter_eq_lookup {β : Type} {xs : List (Text × β)} (h : (xs.map Prod.fst).Nodup) (key : Text) :
    xs.filter (·.1 = key) = (xs.lookup key).toList.map (key, ·) := by
  induction xs with
  | nil => rfl
  | cons x xs ih =>
      obtain ⟨k, y⟩ := x
      rw [List.map_cons, List.nodup_cons] at h
      by_cases hk : k = key
      · subst hk
        have hnone : xs.filter (·.1 = k) = [] := by
          rw [List.filter_eq_nil_iff]
          intro x hx hkey
          exact h.1 (List.mem_map.mpr ⟨x, hx, by simpa using hkey⟩)
        simp [hnone]
      · have hne : (key == k) = false := by simpa using Ne.symm hk
        rw [List.lookup_cons, hne, List.filter_cons_of_neg (by simpa using hk), ih h.2]

/-- Each known key is found as often as it is given. -/
theorem Mixed.filter_eq (h : Mixed known given fields) (hgiven : (given.map Prod.fst).Nodup) {key : Text}
    (hkey : key ∈ known) :
    fields.filter (·.1 = some key) = (given.lookup key).toList.map (some key, ·) := by
  obtain ⟨others, hperm, hothers⟩ := h
  have hnone : others.filter (·.1 = some key) = [] := by
    rw [List.filter_eq_nil_iff]
    intro field hfield heq
    obtain ⟨⟨k, hk, hunknown⟩, -⟩ := hothers field hfield
    have hsame : k = key := by simpa [hk] using heq
    exact hunknown (hsame ▸ hkey)
  have hfilter := hperm.filter (·.1 = some key)
  rw [List.filter_append, hnone, List.append_nil, List.filter_map] at hfilter
  have hsame : ((fun field : Option Text × Form => decide (field.1 = some key)) ∘ Prod.map some id) =
      fun field : Text × Form => decide (field.1 = key) := by
    funext field
    simp
  rw [hsame, filter_eq_lookup hgiven, List.map_map] at hfilter
  cases hlookup : given.lookup key with
  | none => simpa [hlookup] using hfilter
  | some value => simpa [hlookup] using hfilter

/-- A record takes up what is given of its keys. -/
theorem record?_of_mixed (h : Mixed known given fields) (hgiven : (given.map Prod.fst).Nodup) :
    record? known (.object fields) = some (known.map fun key => given.lookup key) := by
  have hnamed : fields.any (·.1.isNone) = false := by
    obtain ⟨others, hperm, hothers⟩ := h
    rw [hperm.any_eq, List.any_append, Bool.or_eq_false_iff]
    refine ⟨by simp, ?_⟩
    rw [List.any_eq_false]
    intro field hfield
    obtain ⟨⟨key, hkey, -⟩, -⟩ := hothers field hfield
    simp [hkey]
  have honce : known.all (fun key => (fields.filter (·.1 = some key)).length ≤ 1) = true := by
    rw [List.all_eq_true]
    intro key hkey
    rw [h.filter_eq hgiven hkey]
    cases given.lookup key <;> simp
  rw [record?, if_neg (by simp [hnamed]), if_pos honce]
  refine congrArg some (List.map_congr_left fun key hkey => ?_)
  rw [lookup_eq_head?_filter, h.filter_eq hgiven hkey]
  cases given.lookup key <;> rfl

/-- A value that is given for some keys is looked up under them and no others. -/
theorem lookup_map {κ β : Type} [DecidableEq κ] {text : κ → Text} (hinj : text.Injective) (value : κ → β)
    (listed : List κ) (key : κ) : (listed.map fun key => (text key, value key)).lookup (text key) =
      if key ∈ listed then some (value key) else none := by
  induction listed with
  | nil => rfl
  | cons first listed ih =>
      by_cases hkey : key = first
      · simp [hkey]
      · have hne : (text key == text first) = false := by simpa using fun h => hkey (hinj h)
        simp [List.lookup_cons, hne, ih, hkey]

theorem orDefault_ite {α : Type} (read : Form → Option α) (default : α) (p : Prop) [Decidable p] {f : Form}
    {a : α} (h : p → read f = some a) :
    orDefault read default (if p then some f else none) = some (if p then a else default) := by
  split
  · next hp => exact h hp
  · rfl

/-! ## Reading each setting -/

theorem text_injective : Key.text.Injective := by
  intro j k h
  cases j <;> cases k <;> first | rfl | exact absurd h (by decide)

theorem key_injective : RuleGroup.key.Injective := by
  intro g h hgh
  cases g <;> cases h <;> first | rfl | exact absurd hgh (by decide)

theorem list?_map {α : Type} {read : Form → Option α} {form : α → Form} (h : ∀ a, read (form a) = some a)
    (as : List α) : list? read (.array (as.map form)) = some as := by
  rw [list?]
  induction as with
  | nil => rfl
  | cons a as ih => simp [List.mapM_cons, h, ih]

theorem text?_form (s : Text) : text? (.string (some s)) = some s := rfl

theorem tag?_form (t : Tag) : tag? (tagForm t) = some t := by
  cases t <;> rfl

theorem branch?_form (b : Branch) : branch? (branchForm b) = some b := by
  cases b <;> rfl

theorem patchMode?_of_mixed {m : PatchMode} {groups : List RuleGroup} (hgroups : groups.Nodup)
    (h : Mixed (RuleGroup.all.map RuleGroup.key) (groups.map fun group => (group.key, .bool (m.enables group)))
      fields) :
    patchMode? (.object fields) = some (.ofGroups fun group =>
      if group ∈ groups then m.enables group else PatchMode.default.enables group) := by
  have hkeys : ((groups.map fun group => (group.key, Form.bool (m.enables group))).map Prod.fst).Nodup := by
    rw [List.map_map]
    exact hgroups.map key_injective
  have hread (group : RuleGroup) : orDefault bool? (PatchMode.default.enables group)
      (if group ∈ groups then some (.bool (m.enables group)) else none) =
        some (if group ∈ groups then m.enables group else PatchMode.default.enables group) :=
    orDefault_ite bool? _ _ fun _ => rfl
  rw [patchMode?, record?_of_mixed h hkeys]
  simp only [Option.bind_eq_bind, Option.bind_some, RuleGroup.all, List.map_cons, List.map_nil,
    lookup_map key_injective, hread]
  rfl

theorem importGuard?_of_mixed {g : ImportGuard} (h : Mixed ["from", "to"]
      [("from", .string (some g.source)), ("to", .string (some g.target))] fields) :
    importGuard? (.object fields) = some g := by
  rw [importGuard?, record?_of_mixed h (by simp)]
  rfl

/-! ## The whole configuration -/

variable {c : Config} {listed : List Key} {groups : List RuleGroup}

theorem overlay_all (hkeys : ∀ key, key ∈ listed) (hgroups : ∀ group, group ∈ groups) :
    c.overlay listed groups = c := by
  simp [overlay, hkeys, hgroups, PatchMode.ofGroups_enables]

theorem Lists.ofForm? (h : c.Lists listed groups fields) :
    ofForm? (.object fields) = some (c.overlay listed groups) := by
  obtain ⟨form, hform, hmixed⟩ := h.mixed
  have hkeys : ((listed.map fun key => (key.text, form key)).map Prod.fst).Nodup := by
    rw [List.map_map]
    exact h.nodup.map text_injective
  have hvalues : keys.map (fun key => (listed.map fun key => (key.text, form key)).lookup key) =
      Key.all.map fun key => if key ∈ listed then some (form key) else none :=
    List.map_congr_left (l := Key.all) fun key _ => lookup_map text_injective form listed key
  have hsentinel := orDefault_ite text? default.sentinel (.sentinel ∈ listed) (f := form .sentinel)
    (a := c.sentinel) fun hkey => by rw [hform _ hkey]; exact text?_form c.sentinel
  have hprelude := orDefault_ite (list? text?) default.prelude (.prelude ∈ listed) (f := form .prelude)
    (a := c.prelude) fun hkey => by rw [hform _ hkey]; exact list?_map text?_form c.prelude
  have htags := orDefault_ite (list? tag?) default.tags (.tags ∈ listed) (f := form .tags)
    (a := c.tags) fun hkey => by rw [hform _ hkey]; exact list?_map tag?_form c.tags
  have hbranch := orDefault_ite branch? default.branch (.branch ∈ listed) (f := form .branch)
    (a := c.branch) fun hkey => by rw [hform _ hkey]; exact branch?_form c.branch
  have hpatch := orDefault_ite patchMode? default.patch (.patch ∈ listed) (f := form .patch) fun hkey => by
    obtain ⟨inner, hinner, hgiven⟩ := hform _ hkey
    rw [hinner, patchMode?_of_mixed h.nodup_groups hgiven]
  have hguard := orDefault_ite importGuard? default.importGuard (.importGuard ∈ listed)
    (f := form .importGuard) (a := c.importGuard) fun hkey => by
      obtain ⟨inner, hinner, hgiven⟩ := hform _ hkey
      rw [hinner, importGuard?_of_mixed hgiven]
  rw [Config.ofForm?, record?_of_mixed hmixed hkeys, hvalues]
  simp only [Option.bind_eq_bind, Option.bind_some, Key.all, List.map_cons, List.map_nil, hsentinel,
    hprelude, htags, hbranch, hpatch, hguard]
  by_cases hkey : .patch ∈ listed
  · simp only [overlay, hkey, true_and]
    rfl
  · simp [overlay, hkey, PatchMode.ofGroups_enables]

/-! ## The text of an object that lists settings -/

theorem spelled_of_mixed (h : Mixed known given fields) (hgiven : ∀ field ∈ given, field.2.Spelled) :
    Form.Spelled (.object fields) := by
  obtain ⟨others, hperm, hothers⟩ := h
  refine Form.Spelled.object fun field hfield => ?_
  rcases List.mem_append.mp (hperm.mem_iff.mp hfield) with hmem | hmem
  · obtain ⟨field', hmem', rfl⟩ := List.mem_map.mp hmem
    exact ⟨rfl, hgiven field' hmem'⟩
  · obtain ⟨⟨key, hkey, -⟩, hspelled⟩ := hothers field hmem
    exact ⟨by rw [hkey]; rfl, hspelled⟩

theorem spelled_tagForm (t : Tag) : (tagForm t).Spelled := by
  cases t with
  | literal s => exact Form.Spelled.object (by simpa using Form.Spelled.string s)
  | pattern s => exact Form.Spelled.object (by simpa using Form.Spelled.string s)

theorem Gives.spelled {key : Key} {form : Form} (h : c.Gives groups key form) : form.Spelled := by
  cases key with
  | sentinel =>
      rw [h]
      exact Form.Spelled.string c.sentinel
  | prelude =>
      rw [h]
      refine Form.Spelled.array fun f hf => ?_
      obtain ⟨line, -, rfl⟩ := List.mem_map.mp hf
      exact Form.Spelled.string line
  | tags =>
      rw [h]
      refine Form.Spelled.array fun f hf => ?_
      obtain ⟨t, -, rfl⟩ := List.mem_map.mp hf
      exact spelled_tagForm t
  | branch =>
      rw [h]
      cases c.branch with
      | primary => exact Form.Spelled.string _
      | alternate => exact Form.Spelled.string _
  | patch =>
      obtain ⟨fields, rfl, hmixed⟩ := h
      refine spelled_of_mixed hmixed fun field hfield => ?_
      obtain ⟨group, -, rfl⟩ := List.mem_map.mp hfield
      exact Form.Spelled.bool _
  | importGuard =>
      obtain ⟨fields, rfl, hmixed⟩ := h
      refine spelled_of_mixed hmixed ?_
      simp [Form.Spelled.string]

/-- An object that lists settings of a configuration has texts, and every one of them is read as the
configuration with these settings and the defaults otherwise, unless the sentinel that it lists is blank.
If everything is listed, that is the configuration itself. -/
theorem read_listed (h : c.Lists listed groups fields) :
    (∃ s, Form.read? s = some (.object fields)) ∧
    (∀ s, Form.read? s = some (.object fields) →
      read s = if .sentinel ∈ listed ∧ Text.isBlankText c.sentinel then .error (.config blankSentinel)
        else .ok (c.overlay listed groups)) ∧
    ((∀ key, key ∈ listed) → (∀ group, group ∈ groups) → c.overlay listed groups = c) := by
  refine ⟨?_, ?_, overlay_all⟩
  · obtain ⟨form, hform, hmixed⟩ := h.mixed
    refine spelled_of_mixed hmixed fun field hfield => ?_
    obtain ⟨key, hkey, rfl⟩ := List.mem_map.mp hfield
    exact (hform key hkey).spelled
  · intro s hs
    have hdefault : Text.isBlankText default.sentinel = false := by decide
    rw [read, hs, Option.bind_some, h.ofForm?]
    by_cases hkey : .sentinel ∈ listed
    · simp [overlay, hkey]
    · simp [overlay, hkey, hdefault]

/-- A field that is not known, a patch mode with one group, and a sentinel with an escape. -/
private def listing : Text :=
  "\x7b \"x\": [1e999], \"patch\":\x7b\"visibility_modifier_fix\":false\x7d,\n\"sentinel\":\"\\u2014\"\x7d"

private def modeFields : List (Option Text × Form) :=
  [(some "visibility_modifier_fix".toList, .bool false)]

private def listedFields : List (Option Text × Form) :=
  [(some "x".toList, .array [.number ⟨false, ['1'], none, some 999⟩]),
    (some "patch".toList, .object modeFields), (some "sentinel".toList, .string (some "—".toList))]

private def dashed : Config := { default with sentinel := "—", patch := .none, branch := .alternate }

theorem read_listed_mixed :
    dashed.Lists [.patch, .sentinel] [.visibility] listedFields ∧
    Form.read? listing = some (.object listedFields) ∧
    read listing = .ok { default with
      sentinel := "—", patch := { PatchMode.default with visibility := false } } := by
  have hnote : Form.Spelled (.array [.number ⟨false, ['1'], none, some 999⟩]) :=
    ⟨"[1e999]", by decide +kernel⟩
  have hmode : Mixed (RuleGroup.all.map RuleGroup.key) [(RuleGroup.visibility.key, .bool false)]
      modeFields := ⟨[], .refl _, by simp⟩
  have hlists : dashed.Lists [.patch, .sentinel] [.visibility] listedFields := by
    refine ⟨by decide, by decide, fun key => if key = .patch then .object modeFields else
      .string (some "—".toList), ?_, [(some "x".toList, _)], (List.perm_append_singleton _ _).symm, ?_⟩
    · simpa using ⟨⟨modeFields, rfl, hmode⟩, rfl⟩
    · simpa using ⟨by decide, hnote⟩
  have htext : Form.read? listing = some (.object listedFields) := by decide +kernel
  refine ⟨hlists, htext, ?_⟩
  rw [(read_listed hlists).2.1 listing htext]
  rfl

end Config

end Crosscheck
