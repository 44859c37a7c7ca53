import NamespacePlan.Proofs.DatumValues
import NamespacePlan.Proofs.MapWrites
import NamespacePlan.Proofs.SettingsChecks

/-! Settings field by field. Reading entries with distinct texts as keys decides each field on its own:
it comes out as the value under its name is read, and as it was where there is none. -/
namespace NamespacePlan

namespace Setting

def name : Setting → String
  | root _ => "root_namespace"
  | optimize _ => "optimize"
  | strict _ => "strict"
  | schemaDir _ => "schema_dir"
  | home _ => "project_home"

/-- The value that a setting is written as. -/
def value : Setting → Value
  | root s => .text s
  | optimize b => .bool b
  | strict b => .bool b
  | schemaDir path => (path.map Value.text).getD .null
  | home s => .text s

/-- What holds of a setting that has been read. -/
def Checked : Setting → Prop
  | root s => s ≠ "" ∧ Identifier.isDotted s = true
  | schemaDir path => ∀ p ∈ path, Path.IsTidy p
  | home s => s ≠ ""
  | _ => True

theorem filledText_ne {v : Value} {s : String} (read : filledText v = .ok s) : s ≠ "" := by
  unfold filledText at read
  split at read
  · cases read
  · split at read
    · cases read
    · next filled =>
      cases read
      exact filled

theorem dottedName_checked {v : Value} {s : String} (read : dottedName v = .ok s) :
    s ≠ "" ∧ Identifier.isDotted s = true := by
  unfold dottedName at read
  split at read
  · cases read
  · next filled =>
    split at read
    · next dotted =>
      cases read
      exact ⟨filledText_ne filled, dotted⟩
    · cases read

theorem optionalPath_tidy {v : Value} {path : Option String} (read : optionalPath v = .ok path) :
    ∀ p ∈ path, Path.IsTidy p := by
  unfold optionalPath at read
  split at read
  · cases read
    exact fun _ none => nomatch none
  · cases read
    rintro _ ⟨⟩
    exact Path.isTidy_tidy _
  · cases read

/-- A field is read as a setting of its name, and what is read has been checked. -/
theorem read_spec {k : String} {v : Value} {g : Setting} (reads : read k v = .ok g) :
    g.name = k ∧ g.Checked := by
  unfold read at reads
  split at reads
  · obtain ⟨s, dotted, rfl⟩ := map_eq_ok_iff.1 reads
    exact ⟨rfl, dottedName_checked dotted⟩
  · obtain ⟨b, _, rfl⟩ := map_eq_ok_iff.1 reads
    exact ⟨rfl, trivial⟩
  · obtain ⟨b, _, rfl⟩ := map_eq_ok_iff.1 reads
    exact ⟨rfl, trivial⟩
  · obtain ⟨path, tidy, rfl⟩ := map_eq_ok_iff.1 reads
    exact ⟨rfl, optionalPath_tidy tidy⟩
  · obtain ⟨s, filled, rfl⟩ := map_eq_ok_iff.1 reads
    exact ⟨rfl, filledText_ne filled⟩
  · cases reads

/-- What has been checked is read again as it is. -/
theorem Checked.read_value {g : Setting} (checked : g.Checked) : read g.name g.value = .ok g := by
  cases g with
  | root s =>
    have dotted := Settings.dottedName_eq_ok_iff.2 ⟨checked, rfl⟩
    exact map_eq_ok_iff.2 ⟨s, dotted, rfl⟩
  | optimize b => rfl
  | strict b => rfl
  | schemaDir path =>
    cases path with
    | none => rfl
    | some p =>
      have stays : optionalPath (.text p) = .ok (some p) := by
        rw [optionalPath, (checked p rfl).tidy_eq]
      exact map_eq_ok_iff.2 ⟨some p, stays, rfl⟩
  | home s =>
    have filled := Settings.filledText_eq_ok_iff.2 ⟨checked, rfl⟩
    exact map_eq_ok_iff.2 ⟨s, filled, rfl⟩

end Setting

namespace Settings

/-- The setting of a field by its name. -/
def field? (s : Settings) : String → Option Setting
  | "root_namespace" => some (.root s.root)
  | "optimize" => some (.optimize s.optimize)
  | "strict" => some (.strict s.strict)
  | "schema_dir" => some (.schemaDir s.schemaDir)
  | "project_home" => some (.home s.home)
  | _ => none

theorem field?_put (s : Settings) (g : Setting) (k : String) :
    (s.put g).field? k = if g.name = k then some g else s.field? k := by
  by_cases own : g.name = k
  · subst own
    rw [if_pos rfl]
    cases g <;> rfl
  · rw [if_neg own]
    unfold field?
    -- the case of its own name is the only one in which a setting that is put is seen
    cases g <;> split <;> first | rfl | exact absurd rfl own

/-- Which names have a field does not depend on the settings. -/
theorem field?_eq_none {s : Settings} {k : String} (none : s.field? k = .none) (c : Settings) :
    c.field? k = .none := by
  unfold field? at none ⊢
  split at none <;> first | rfl | cases none

theorem ext_field? {s c : Settings} (same : ∀ k, s.field? k = c.field? k) : s = c := by
  have root := Setting.root.inj (Option.some.inj (same "root_namespace"))
  have optimize := Setting.optimize.inj (Option.some.inj (same "optimize"))
  have strict := Setting.strict.inj (Option.some.inj (same "strict"))
  have directory := Setting.schemaDir.inj (Option.some.inj (same "schema_dir"))
  have home := Setting.home.inj (Option.some.inj (same "project_home"))
  cases s
  cases c
  simp_all

/-- How a field comes out: as it was, or as the value is read that is given for it. -/
def FieldFrom (k : String) (old : Option Setting) (given : Option Value) (new : Option Setting) :
    Prop :=
  match given with
  | none => new = old
  | some v => ∃ g, Setting.read k v = .ok g ∧ new = some g

namespace FieldFrom

variable {k : String} {old mid new other : Option Setting} {a b : Option Value}

theorem unique (left : FieldFrom k old a new) (right : FieldFrom k old a other) : new = other := by
  cases a with
  | none => exact Eq.trans left (Eq.symm right)
  | some v =>
    obtain ⟨g, read, rfl⟩ := left
    obtain ⟨h, again, rfl⟩ := right
    rw [read] at again
    cases again
    rfl

/-- Of two values given one after the other, the later one counts. -/
theorem trans (first : FieldFrom k old a mid) (second : FieldFrom k mid b new) :
    FieldFrom k old (b.or a) new := by
  cases b with
  | none =>
    cases second
    exact first
  | some v => exact second

/-- A setting that has been read, given as it is written, comes out as it is. -/
theorem value_iff {g : Setting} (checked : g.Checked) :
    FieldFrom g.name old (some g.value) new ↔ new = some g := by
  constructor
  · rintro ⟨h, read, rfl⟩
    cases checked.read_value.symm.trans read
    rfl
  · rintro rfl
    exact ⟨g, checked.read_value, rfl⟩

end FieldFrom

/-- Entries with texts as keys. -/
def textKeyed (es : List (String × Value)) : List (Value × Value) :=
  es.map fun e => (.text e.1, e.2)

theorem ofEntry_text (e : String × Value) {g : Setting} :
    Setting.ofEntry (.text e.1, e.2) = .ok g ↔ Setting.read e.1 e.2 = .ok g := by
  unfold Setting.ofEntry
  exact mapError_eq_ok_iff

/-- Entries that have been read are put field by field, each key of them once. -/
theorem fieldFrom_foldl_put {es : List (String × Value)} (distinct : (es.map Prod.fst).Nodup)
    {gs : List Setting} (reads : (textKeyed es).map Setting.ofEntry = gs.map .ok) (s : Settings)
    (k : String) :
    FieldFrom k (s.field? k) (OrderedMap.find k es) ((gs.foldl put s).field? k) := by
  induction es generalizing gs s with
  | nil =>
    cases gs with
    | nil => rfl
    | cons g gs => cases reads
  | cons e es ih =>
    cases gs with
    | nil => cases reads
    | cons g gs =>
      rw [List.map_cons, List.nodup_cons] at distinct
      obtain ⟨first, rest⟩ := List.cons.inj reads
      have read := (ofEntry_text e).1 first
      have named := (Setting.read_spec read).1
      have later := ih distinct.2 rest (s.put g)
      rw [field?_put, named] at later
      rw [List.foldl_cons, OrderedMap.find]
      by_cases here : e.1 = k
      · have absent : OrderedMap.find k es = none :=
          (OrderedMap.find_eq_none_iff k es).2 (here ▸ distinct.1)
        rw [absent, if_pos here] at later
        rw [if_pos here]
        exact ⟨g, here ▸ read, later⟩
      · rw [if_neg here] at later
        rw [if_neg here]
        exact later

/-- Entries are read as the settings whose fields come from the defaults and the values under their
names; where one of the values is not admitted, as none. -/
theorem ofEntries_textKeyed_iff (m : OrderedMap String Value) {c : Settings} :
    ofEntries (textKeyed m.entries) = .ok c ↔
      ∀ k, FieldFrom k (({} : Settings).field? k) (m.get? k) (c.field? k) := by
  have whole : ∀ {d}, ofEntries (textKeyed m.entries) = .ok d →
      ∀ k, FieldFrom k (({} : Settings).field? k) (m.get? k) (d.field? k) := by
    intro d read k
    unfold ofEntries at read
    split at read
    · next gs gathered =>
      cases read
      exact fieldFrom_foldl_put m.nodup_keys (FieldFault.map_ok_of_gather gathered) {} k
    · cases read
  constructor
  · exact whole
  · intro fields
    have all : ∀ r ∈ (textKeyed m.entries).map Setting.ofEntry, ∃ g, r = .ok g := by
      intro r member
      simp only [textKeyed, List.map_map, List.mem_map] at member
      obtain ⟨e, listed, rfl⟩ := member
      have given := fields e.1
      rw [(m.get?_eq_some_iff e.1 e.2).2 listed] at given
      obtain ⟨g, read, _⟩ := given
      exact ⟨g, (ofEntry_text e).2 read⟩
    obtain ⟨gs, reads⟩ := FieldFault.exists_map_ok all
    have ends : ofEntries (textKeyed m.entries) = .ok (gs.foldl put {}) := by
      rw [ofEntries, reads, FieldFault.gather_map_ok]
    have same : gs.foldl put {} = c := ext_field? fun k => (whole ends k).unique (fields k)
    rw [ends, same]

/-! Settings that have been read. -/

/-- The root is a dotted name, the home is some text, and the directory is written as short as it can
be. -/
structure Valid (s : Settings) : Prop extends Sound s where
  directory : ∀ p ∈ s.schemaDir, Path.IsTidy p

theorem valid_default : Valid {} :=
  ⟨⟨by decide, by decide, by decide⟩, fun _ none => nomatch none⟩

theorem Valid.put {s : Settings} (valid : s.Valid) {g : Setting} (checked : g.Checked) :
    (s.put g).Valid := by
  cases g with
  | root r => exact ⟨⟨checked.1, checked.2, valid.home⟩, valid.directory⟩
  | optimize b => exact ⟨⟨valid.filled, valid.dotted, valid.home⟩, valid.directory⟩
  | strict b => exact ⟨⟨valid.filled, valid.dotted, valid.home⟩, valid.directory⟩
  | schemaDir p => exact ⟨⟨valid.filled, valid.dotted, valid.home⟩, checked⟩
  | home h => exact ⟨⟨valid.filled, valid.dotted, checked⟩, valid.directory⟩

theorem Valid.foldl_put {s : Settings} (valid : s.Valid) {gs : List Setting}
    (checked : ∀ g ∈ gs, g.Checked) : (gs.foldl Settings.put s).Valid := by
  induction gs generalizing s with
  | nil => exact valid
  | cons g gs ih =>
    exact ih (valid.put (checked g List.mem_cons_self))
      fun h later => checked h (List.mem_cons_of_mem g later)

theorem Valid.checked {s : Settings} (valid : s.Valid) {k : String} {g : Setting}
    (field : s.field? k = some g) : g.name = k ∧ g.Checked := by
  unfold field? at field
  split at field <;> cases field
  · exact ⟨rfl, valid.filled, valid.dotted⟩
  · exact ⟨rfl, trivial⟩
  · exact ⟨rfl, trivial⟩
  · exact ⟨rfl, valid.directory⟩
  · exact ⟨rfl, valid.home⟩

theorem checked_of_ofEntry {e : Value × Value} {g : Setting} (read : Setting.ofEntry e = .ok g) :
    g.Checked := by
  obtain ⟨k, v⟩ := e
  cases k with
  | text name => exact (Setting.read_spec ((ofEntry_text (name, v)).1 read)).2
  | _ => cases read

/-- Whatever the entries are, the settings read from them are valid. -/
theorem valid_of_ofEntries {es : List (Value × Value)} {c : Settings} (read : ofEntries es = .ok c) :
    c.Valid := by
  unfold ofEntries at read
  split at read
  · next gs gathered =>
    cases read
    have checked : ∀ g ∈ gs, g.Checked := by
      intro g member
      have listed : .ok g ∈ es.map Setting.ofEntry := by
        rw [FieldFault.map_ok_of_gather gathered]
        exact List.mem_map_of_mem member
      obtain ⟨e, _, reads⟩ := List.mem_map.1 listed
      exact checked_of_ofEntry reads
    exact valid_default.foldl_put checked
  · cases read

end Settings

end NamespacePlan
