import NamespacePlan.Draft
import NamespacePlan.Proofs.SettingsEntries
import NamespacePlan.Proofs.SettingsMerge

/-! Drafts and what is wrong with them. A draft is the record that its fields are read as if each can be
read; if not, it is refused with one fault for each thing in it that cannot be read, at its place. -/
namespace NamespacePlan

namespace FieldFault

variable {α β : Type}

/-- A failure reports something. -/
def Told (r : Except (List FieldFault) α) : Prop := r ≠ .error []

/-! One reading. -/

theorem locate_eq_ok_iff {place : List FieldStep} {r : Except FieldProblem α} {a : α} :
    locate place r = .ok a ↔ r = .ok a := mapError_eq_ok_iff

theorem mem_reported_locate {place : List FieldStep} {r : Except FieldProblem α} {f : FieldFault} :
    f ∈ reported (locate place r) ↔ ∃ p, r = .error p ∧ f = ⟨place, p⟩ := by
  cases r <;> simp [locate, reported, Except.mapError]

theorem told_locate (place : List FieldStep) (r : Except FieldProblem α) : Told (locate place r) := by
  cases r <;> simp [Told, locate, Except.mapError]

/-! Two readings. -/

theorem both_eq_ok_iff {a : Except (List FieldFault) α} {b : Except (List FieldFault) β} {x : α}
    {y : β} : both a b = .ok (x, y) ↔ a = .ok x ∧ b = .ok y := by
  cases a <;> cases b <;> simp [both]

theorem reported_both (a : Except (List FieldFault) α) (b : Except (List FieldFault) β) :
    reported (both a b) = reported a ++ reported b := by
  cases a <;> cases b <;> simp [both, reported]

theorem Told.both {a : Except (List FieldFault) α} {b : Except (List FieldFault) β} (left : Told a)
    (right : Told b) : Told (both a b) := by
  unfold Told at *
  cases a <;> cases b <;> simp_all [FieldFault.both]

/-! Any number of readings. -/

open Draft in
theorem all_eq_ok_iff {rs : List (Except (List FieldFault) α)} {as : List α} :
    all rs = .ok as ↔ List.Forall₂ (fun r a => r = .ok a) rs as := by
  induction rs generalizing as with
  | nil => simp [all, eq_comm]
  | cons r rs ih =>
    have step : all (r :: rs) = (FieldFault.both r (all rs)).map fun p => p.1 :: p.2 := rfl
    rw [step]
    cases r with
    | error fs => cases all rs <;> cases as <;> simp [FieldFault.both, Except.map]
    | ok a =>
      cases as with
      | nil => cases all rs <;> simp [FieldFault.both, Except.map]
      | cons b bs =>
        rw [List.forall₂_cons, ← ih]
        cases all rs <;> simp [FieldFault.both, Except.map]

open Draft in
theorem reported_all (rs : List (Except (List FieldFault) α)) :
    reported (all rs) = rs.flatMap reported := by
  induction rs with
  | nil => rfl
  | cons r rs ih =>
    have step : reported (all (r :: rs)) = reported (FieldFault.both r (all rs)) := by
      have map : ∀ x : Except (List FieldFault) (α × List α),
          reported (x.map fun p => p.1 :: p.2) = reported x := by
        intro x
        cases x <;> rfl
      exact map _
    rw [step, reported_both, ih, List.flatMap_cons]

open Draft in
theorem told_all {rs : List (Except (List FieldFault) α)} (told : ∀ r ∈ rs, Told r) :
    Told (all rs) := by
  induction rs with
  | nil => simp [Told, all]
  | cons r rs ih =>
    have first := told r List.mem_cons_self
    have both := first.both (ih fun s member => told s (List.mem_cons_of_mem r member))
    intro silent
    have step : all (r :: rs) = (FieldFault.both r (all rs)).map fun p => p.1 :: p.2 := rfl
    rw [step] at silent
    cases pairs : FieldFault.both r (all rs) with
    | ok p =>
      rw [pairs] at silent
      cases silent
    | error fs =>
      rw [pairs] at silent both
      cases silent
      exact both rfl

end FieldFault

open FieldFault Draft

theorem mem_reported_textEntry {field : String} {e : Value × Value} {f : FieldFault} :
    f ∈ reported (textEntry field e) ↔
      (∃ p, e.1.asText = .error p ∧ f = ⟨[.name field, e.1.keyStep, .name "[key]"], p⟩) ∨
      ∃ p, e.2.asText = .error p ∧ f = ⟨[.name field, e.1.keyStep], p⟩ := by
  rw [textEntry, reported_both, List.mem_append, mem_reported_locate, mem_reported_locate]
  rfl

theorem textEntry_eq_ok_iff {field : String} {e : Value × Value} {b : String × String} :
    textEntry field e = .ok b ↔ e.1.asText = .ok b.1 ∧ e.2.asText = .ok b.2 := by
  rw [textEntry, both_eq_ok_iff, locate_eq_ok_iff, locate_eq_ok_iff]

theorem told_textEntry (field : String) (e : Value × Value) : Told (textEntry field e) :=
  (told_locate _ _).both (told_locate _ _)

/-! Checks that report in order. -/

/-- What a check ends with whose readings are these. -/
def Settled {α β : Type} (readings : Except (List FieldFault) α) (build : α → β) :
    Except (List FieldFault) β :=
  match readings with
  | .ok a => .ok (build a)
  | .error fs => .error (sorted fs)

theorem settled_spec {α β : Type} {readings : Except (List FieldFault) α} {build : α → β}
    {wrong : FieldFault → Prop} (told : Told readings)
    (faults : ∀ f, f ∈ reported readings ↔ wrong f) :
    ((∃ b, Settled readings build = .ok b) ↔ ¬∃ f, wrong f) ∧
    ∀ fs, Settled readings build = .error fs →
      fs.Pairwise (fun f g => f.line ≤ g.line) ∧ ∀ f, f ∈ fs ↔ wrong f := by
  cases readings with
  | ok a =>
    have fine : ¬∃ f, wrong f := by
      rintro ⟨f, h⟩
      simpa [reported] using (faults f).2 h
    refine ⟨iff_of_true ⟨build a, rfl⟩ fine, ?_⟩
    rintro fs ⟨⟩
  | error gs =>
    obtain ⟨g, member⟩ := List.exists_mem_of_ne_nil gs fun none => told (congrArg Except.error none)
    refine ⟨iff_of_false ?_ fun fine => fine ⟨g, (faults g).1 member⟩, ?_⟩
    · rintro ⟨b, ⟨⟩⟩
    rintro fs ⟨⟩
    refine ⟨pairwise_sorted gs, fun f => ?_⟩
    rw [← faults, sorted, List.mem_mergeSort]
    rfl

/-! Descriptors. -/

namespace DescriptorDraft

/-- Each field of a draft is read as the one of a descriptor. -/
structure Reads (d : DescriptorDraft) (r : Descriptor) : Prop where
  target : d.target.asText = .ok r.target
  bindings : ∃ bs, r.bindings = .ofList bs ∧
    List.Forall₂ (fun e b => e.1.asText = .ok b.1 ∧ e.2.asText = .ok b.2) (Value.mapOf d.bindings) bs
  maindoc : ∃ m, r.maindoc = some m ∧ d.maindoc.asTruth = .ok m
  location : optionalText d.location = .ok r.location

/-- What in a draft cannot be read, and the place under which it is reported. -/
inductive Wrong (d : DescriptorDraft) : FieldFault → Prop
  | target {p : FieldProblem} (unread : d.target.asText = .error p) :
      Wrong d ⟨[.name "target_namespace"], p⟩
  | key {e : Value × Value} {p : FieldProblem} (listed : e ∈ Value.mapOf d.bindings)
      (unread : e.1.asText = .error p) :
      Wrong d ⟨[.name "namespaces", e.1.keyStep, .name "[key]"], p⟩
  | binding {e : Value × Value} {p : FieldProblem} (listed : e ∈ Value.mapOf d.bindings)
      (unread : e.2.asText = .error p) : Wrong d ⟨[.name "namespaces", e.1.keyStep], p⟩
  | maindoc {p : FieldProblem} (unread : d.maindoc.asTruth = .error p) :
      Wrong d ⟨[.name "is_maindoc"], p⟩
  | location {p : FieldProblem} (unread : optionalText d.location = .error p) :
      Wrong d ⟨[.name "location"], p⟩

section Check

variable (d : DescriptorDraft)

/-- All fields of a draft together. -/
def readings : Except (List FieldFault)
    ((String × List (String × String)) × Bool × Option String) :=
  both
    (both (locate [.name "target_namespace"] d.target.asText)
      (all ((Value.mapOf d.bindings).map (textEntry "namespaces"))))
    (both (locate [.name "is_maindoc"] d.maindoc.asTruth)
      (locate [.name "location"] (optionalText d.location)))

theorem check_eq : d.check =
    Settled d.readings fun p => ⟨p.1.1, OrderedMap.ofList p.1.2, some p.2.1, p.2.2⟩ := by
  unfold check Settled readings
  dsimp only
  split
  · next read => rw [read]
  · next read => rw [read]

theorem mem_reported_readings (f : FieldFault) : f ∈ reported d.readings ↔ d.Wrong f := by
  simp only [readings, reported_both, reported_all, List.mem_append, mem_reported_locate,
    List.flatMap_map, List.mem_flatMap, mem_reported_textEntry]
  constructor
  · rintro ((⟨p, unread, rfl⟩ | ⟨e, listed, ⟨p, unread, rfl⟩ | ⟨p, unread, rfl⟩⟩) |
      ⟨p, unread, rfl⟩ | ⟨p, unread, rfl⟩)
    · exact .target unread
    · exact .key listed unread
    · exact .binding listed unread
    · exact .maindoc unread
    · exact .location unread
  · intro wrong
    cases wrong with
    | target unread => exact .inl (.inl ⟨_, unread, rfl⟩)
    | key listed unread => exact .inl (.inr ⟨_, listed, .inl ⟨_, unread, rfl⟩⟩)
    | binding listed unread => exact .inl (.inr ⟨_, listed, .inr ⟨_, unread, rfl⟩⟩)
    | maindoc unread => exact .inr (.inl ⟨_, unread, rfl⟩)
    | location unread => exact .inr (.inr ⟨_, unread, rfl⟩)

theorem told_readings : Told d.readings := by
  have entries : ∀ r ∈ (Value.mapOf d.bindings).map (textEntry "namespaces"), Told r := by
    intro r member
    obtain ⟨e, _, rfl⟩ := List.mem_map.1 member
    exact told_textEntry _ e
  exact ((told_locate _ _).both (told_all entries)).both ((told_locate _ _).both (told_locate _ _))

theorem check_eq_ok_iff {r : Descriptor} : d.check = .ok r ↔ d.Reads r := by
  have entries : ∀ bs, all ((Value.mapOf d.bindings).map (textEntry "namespaces")) = .ok bs ↔
      List.Forall₂ (fun e b => e.1.asText = .ok b.1 ∧ e.2.asText = .ok b.2)
        (Value.mapOf d.bindings) bs := by
    intro bs
    rw [all_eq_ok_iff, List.forall₂_map_left_iff]
    simp only [textEntry_eq_ok_iff]
  have whole : ∀ t bs m l, d.readings = .ok ((t, bs), m, l) ↔
      (d.target.asText = .ok t ∧
        List.Forall₂ (fun e b => e.1.asText = .ok b.1 ∧ e.2.asText = .ok b.2)
          (Value.mapOf d.bindings) bs) ∧
      d.maindoc.asTruth = .ok m ∧ optionalText d.location = .ok l := by
    intro t bs m l
    simp only [readings, both_eq_ok_iff, locate_eq_ok_iff, entries]
  rw [check_eq]
  constructor
  · intro checked
    cases read : d.readings with
    | error fs =>
      rw [read] at checked
      cases checked
    | ok p =>
      rw [read] at checked
      cases checked
      obtain ⟨⟨target, bindings⟩, maindoc, location⟩ := (whole _ _ _ _).1 read
      exact ⟨target, ⟨_, rfl, bindings⟩, ⟨_, rfl, maindoc⟩, location⟩
  · rintro ⟨target, ⟨bs, same, bindings⟩, ⟨m, decided, maindoc⟩, location⟩
    rw [(whole _ bs m _).2 ⟨⟨target, bindings⟩, maindoc, location⟩]
    obtain ⟨_, _, _, _⟩ := r
    cases same
    cases decided
    rfl

/-- A draft checks to the one record its fields are read as, if nothing in it is wrong; else all that
is wrong with it is reported, each at its place and in one order. -/
theorem check_settles : (∀ r, d.check = .ok r ↔ d.Reads r) ∧
    ((∃ r, d.check = .ok r) ↔ ¬∃ f, d.Wrong f) ∧
    ∀ fs, d.check = .error fs → fs.Pairwise (fun f g => f.line ≤ g.line) ∧ ∀ f, f ∈ fs ↔ d.Wrong f := by
  refine ⟨fun r => d.check_eq_ok_iff, ?_⟩
  rw [check_eq]
  exact settled_spec d.told_readings d.mem_reported_readings

end Check

/-- The fields of a descriptor. -/
def ofDescriptor (r : Descriptor) : DescriptorDraft where
  target := .text r.target
  bindings := r.bindings.entries.map fun b => (.text b.1, .text b.2)
  maindoc := (r.maindoc.map Value.bool).getD .null
  location := (r.location.map Value.text).getD .null

/-- A descriptor is what its own fields check to, if it is decided whether it is a main document. -/
theorem check_ofDescriptor {r : Descriptor} {m : Bool} (decided : r.maindoc = some m) :
    (ofDescriptor r).check = .ok r := by
  have listed : Value.mapOf (ofDescriptor r).bindings = (ofDescriptor r).bindings := by
    have keyed : (ofDescriptor r).bindings =
        Settings.textKeyed (r.bindings.entries.map fun b => (b.1, .text b.2)) := by
      simp [ofDescriptor, Settings.textKeyed]
    have once : ((r.bindings.entries.map fun b => (b.1, Value.text b.2)).map Prod.fst).Nodup := by
      simpa [Function.comp_def] using r.bindings.nodup_keys
    rw [keyed, Value.mapOf_textKeyed, OrderedMap.entries_ofList_of_nodup once]
  refine (check_eq_ok_iff _).2 ⟨rfl, ⟨r.bindings.entries, ?_, ?_⟩, ⟨m, decided, ?_⟩, ?_⟩
  · exact OrderedMap.ext (OrderedMap.entries_ofList_of_nodup r.bindings.nodup_keys).symm
  · rw [listed, ofDescriptor, List.forall₂_map_left_iff]
    exact List.forall₂_same.2 fun b _ => ⟨rfl, rfl⟩
  · simp [ofDescriptor, decided, Value.asTruth]
  · cases location : r.location <;> simp [ofDescriptor, location, optionalText, Value.asText, Except.map]

end DescriptorDraft

/-! Units. -/

namespace UnitDraft

structure Reads (u : UnitDraft) (r : PlannedUnit) : Prop where
  namespaceName : u.namespaceName.asText = .ok r.namespaceName
  header : u.header.asText = .ok r.header
  imports : ∃ vs, u.imports = .list vs ∧ List.Forall₂ (fun v s => v.asText = .ok s) vs r.imports
  documentation : u.documentation.asText = .ok r.documentation
  xmlNamespace : optionalText u.xmlNamespace = .ok r.xmlNamespace

inductive Wrong (u : UnitDraft) : FieldFault → Prop
  | namespaceName {p : FieldProblem} (unread : u.namespaceName.asText = .error p) :
      Wrong u ⟨[.name "namespace"], p⟩
  | header {p : FieldProblem} (unread : u.header.asText = .error p) : Wrong u ⟨[.name "header"], p⟩
  | imports (other : ∀ vs, u.imports ≠ .list vs) : Wrong u ⟨[.name "imports"], .notList⟩
  | imported {vs : List Value} {i : Nat} {v : Value} {p : FieldProblem} (list : u.imports = .list vs)
      (listed : vs[i]? = some v) (unread : v.asText = .error p) :
      Wrong u ⟨[.name "imports", .index i], p⟩
  | documentation {p : FieldProblem} (unread : u.documentation.asText = .error p) :
      Wrong u ⟨[.name "documentation"], p⟩
  | xmlNamespace {p : FieldProblem} (unread : optionalText u.xmlNamespace = .error p) :
      Wrong u ⟨[.name "xml_namespace"], p⟩

theorem forall₂_located (field : String) (place : Nat) (vs : List Value) (ss : List String) :
    List.Forall₂ (fun r s => r = .ok s)
        (vs.mapIdx fun i v => locate [.name field, .index (place + i : Nat)] v.asText) ss ↔
      List.Forall₂ (fun v s => v.asText = .ok s) vs ss := by
  induction vs generalizing ss place with
  | nil => simp
  | cons v vs ih =>
    have shift : (fun i (v : Value) => locate [.name field, .index (place + (i + 1) : Nat)] v.asText) =
        fun i v => locate [.name field, .index (place + 1 + i : Nat)] v.asText := by
      funext i v
      rw [Nat.add_right_comm place 1 i, ← Nat.add_assoc]
    cases ss with
    | nil => simp
    | cons s ss =>
      rw [List.mapIdx_cons, shift, List.forall₂_cons, List.forall₂_cons, locate_eq_ok_iff, ih]

theorem textList_eq_ok_iff {field : String} {v : Value} {ss : List String} :
    textList field v = .ok ss ↔
      ∃ vs, v = .list vs ∧ List.Forall₂ (fun v s => v.asText = .ok s) vs ss := by
  cases v with
  | list vs =>
    have located := forall₂_located field 0 vs ss
    simp only [Nat.zero_add] at located
    simp only [textList, all_eq_ok_iff, located, Value.list.injEq, exists_eq_left']
  | _ => simp [textList]

theorem mem_reported_textList {field : String} {v : Value} {f : FieldFault} :
    f ∈ reported (textList field v) ↔ ((∀ vs, v ≠ .list vs) ∧ f = ⟨[.name field], .notList⟩) ∨
      ∃ vs i x p, v = .list vs ∧ vs[i]? = some x ∧ x.asText = .error p ∧
        f = ⟨[.name field, .index (i : Nat)], p⟩ := by
  cases v with
  | list vs =>
    simp only [textList, reported_all, List.mem_flatMap, List.mem_mapIdx, Value.list.injEq]
    constructor
    · rintro ⟨_, ⟨i, inside, rfl⟩, member⟩
      obtain ⟨p, unread, rfl⟩ := mem_reported_locate.1 member
      exact .inr ⟨vs, i, vs[i], p, rfl, List.getElem?_eq_getElem inside, unread, rfl⟩
    · rintro (⟨other, _⟩ | ⟨_, i, x, p, rfl, listed, unread, rfl⟩)
      · exact absurd rfl (other vs)
      · obtain ⟨inside, rfl⟩ := List.getElem?_eq_some_iff.1 listed
        exact ⟨_, ⟨i, inside, rfl⟩, mem_reported_locate.2 ⟨p, unread, rfl⟩⟩
  | _ => simp [textList, reported]

theorem told_textList (field : String) (v : Value) : Told (textList field v) := by
  cases v with
  | list vs =>
    apply told_all
    intro r member
    obtain ⟨i, inside, rfl⟩ := List.mem_mapIdx.1 member
    exact told_locate _ _
  | _ => simp [textList, Told]

section Check

variable (u : UnitDraft)

/-- All fields of a draft together. -/
def readings : Except (List FieldFault)
    ((String × String) × List String × String × Option String) :=
  both (both (locate [.name "namespace"] u.namespaceName.asText)
      (locate [.name "header"] u.header.asText))
    (both (textList "imports" u.imports)
      (both (locate [.name "documentation"] u.documentation.asText)
        (locate [.name "xml_namespace"] (optionalText u.xmlNamespace))))

theorem check_eq : u.check = Settled u.readings fun p =>
    { namespaceName := p.1.1
      header := p.1.2
      imports := p.2.1
      documentation := p.2.2.1
      xmlNamespace := p.2.2.2 } := by
  unfold check Settled readings
  dsimp only
  split
  · next read => rw [read]
  · next read => rw [read]

theorem mem_reported_readings (f : FieldFault) : f ∈ reported u.readings ↔ u.Wrong f := by
  simp only [readings, reported_both, List.mem_append, mem_reported_locate, mem_reported_textList]
  constructor
  · rintro ((⟨p, unread, rfl⟩ | ⟨p, unread, rfl⟩) |
      (⟨other, rfl⟩ | ⟨vs, i, x, p, list, listed, unread, rfl⟩) | ⟨p, unread, rfl⟩ | ⟨p, unread, rfl⟩)
    · exact .namespaceName unread
    · exact .header unread
    · exact .imports other
    · exact .imported list listed unread
    · exact .documentation unread
    · exact .xmlNamespace unread
  · intro wrong
    cases wrong with
    | namespaceName unread => exact .inl (.inl ⟨_, unread, rfl⟩)
    | header unread => exact .inl (.inr ⟨_, unread, rfl⟩)
    | imports other => exact .inr (.inl (.inl ⟨other, rfl⟩))
    | imported list listed unread =>
      exact .inr (.inl (.inr ⟨_, _, _, _, list, listed, unread, rfl⟩))
    | documentation unread => exact .inr (.inr (.inl ⟨_, unread, rfl⟩))
    | xmlNamespace unread => exact .inr (.inr (.inr ⟨_, unread, rfl⟩))

theorem told_readings : Told u.readings :=
  ((told_locate _ _).both (told_locate _ _)).both
    ((told_textList _ _).both ((told_locate _ _).both (told_locate _ _)))

theorem check_eq_ok_iff {r : PlannedUnit} : u.check = .ok r ↔ u.Reads r := by
  have whole : ∀ n h i d x, u.readings = .ok ((n, h), i, d, x) ↔
      (u.namespaceName.asText = .ok n ∧ u.header.asText = .ok h) ∧
      (∃ vs, u.imports = .list vs ∧ List.Forall₂ (fun v s => v.asText = .ok s) vs i) ∧
      u.documentation.asText = .ok d ∧ optionalText u.xmlNamespace = .ok x := by
    intro n h i d x
    simp only [readings, both_eq_ok_iff, locate_eq_ok_iff, textList_eq_ok_iff]
  rw [check_eq]
  constructor
  · intro checked
    cases read : u.readings with
    | error fs =>
      rw [read] at checked
      cases checked
    | ok p =>
      rw [read] at checked
      cases checked
      obtain ⟨⟨name, header⟩, imports, documentation, uri⟩ := (whole _ _ _ _ _).1 read
      exact ⟨name, header, imports, documentation, uri⟩
  · rintro ⟨name, header, imports, documentation, uri⟩
    rw [(whole _ _ _ _ _).2 ⟨⟨name, header⟩, imports, documentation, uri⟩]
    rfl

/-- A draft checks to the one unit its fields are read as, if nothing in it is wrong; else all that is
wrong with it is reported, each at its place and in one order. -/
theorem check_settles : (∀ r, u.check = .ok r ↔ u.Reads r) ∧
    ((∃ r, u.check = .ok r) ↔ ¬∃ f, u.Wrong f) ∧
    ∀ fs, u.check = .error fs → fs.Pairwise (fun f g => f.line ≤ g.line) ∧ ∀ f, f ∈ fs ↔ u.Wrong f := by
  refine ⟨fun r => u.check_eq_ok_iff, ?_⟩
  rw [check_eq]
  exact settled_spec u.told_readings u.mem_reported_readings

end Check

/-- The fields of a unit. -/
def ofUnit (r : PlannedUnit) : UnitDraft where
  namespaceName := .text r.namespaceName
  header := .text r.header
  imports := .list (r.imports.map .text)
  documentation := .text r.documentation
  xmlNamespace := (r.xmlNamespace.map Value.text).getD .null

/-- A unit is what its own fields check to. -/
theorem check_ofUnit (r : PlannedUnit) : (ofUnit r).check = .ok r := by
  refine (check_eq_ok_iff _).2 ⟨rfl, rfl, ⟨_, rfl, ?_⟩, rfl, ?_⟩
  · rw [List.forall₂_map_left_iff]
    exact List.forall₂_same.2 fun s _ => rfl
  · cases uri : r.xmlNamespace <;> simp [ofUnit, uri, optionalText, Value.asText, Except.map]

end UnitDraft

end NamespacePlan
