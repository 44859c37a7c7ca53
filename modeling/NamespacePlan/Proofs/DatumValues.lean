import NamespacePlan.Manifest
import NamespacePlan.Proofs.ManifestIntegrity

/-! The value that data to be written stands for. A reader puts the entries of a map in one by one;
where the keys of every object are distinct texts this gives the entries back as they stand. -/
namespace NamespacePlan

namespace Value

theorem sameKey_text (s t : String) : sameKey (.text s) (.text t) = (s == t) := rfl

theorem putEntry_of_new {s : String} {v : Value} {es : List (Value × Value)}
    (new : ∀ e ∈ es, sameKey e.1 (.text s) = false) :
    putEntry (.text s) v es = es ++ [(.text s, v)] := by
  induction es with
  | nil => rfl
  | cons e es ih =>
    have other := new e List.mem_cons_self
    have rest := ih fun f member => new f (List.mem_cons_of_mem e member)
    rw [putEntry, other, rest]
    rfl

end Value

namespace Datum

/-- Induction over data: what holds of all members holds of the collection. -/
@[elab_as_elim]
theorem induct {motive : Datum → Prop} (null : motive .null) (bool : ∀ b, motive (.bool b))
    (text : ∀ s, motive (.text s)) (list : ∀ ds, (∀ d ∈ ds, motive d) → motive (.list ds))
    (object : ∀ fs, (∀ f ∈ fs, motive f.2) → motive (.object fs)) : ∀ d, motive d
  | .null => null
  | .bool b => bool b
  | .text s => text s
  | .list ds => list ds fun d _ => induct null bool text list object d
  | .object fs => object fs fun f _ => induct null bool text list object f.2
termination_by d => sizeOf d
decreasing_by
  · rename_i member
    have smaller := List.sizeOf_lt_of_mem member
    simp only [Datum.list.sizeOf_spec]
    omega
  · rename_i member
    have smaller := List.sizeOf_lt_of_mem member
    have part : sizeOf f.2 < sizeOf f := by
      cases f
      simp only [Prod.mk.sizeOf_spec]
      omega
    simp only [Datum.object.sizeOf_spec]
    omega

theorem mapOf_toEntries {fs : List (String × Datum)} (distinct : (fs.map Prod.fst).Nodup) :
    Value.mapOf (toEntries fs) = toEntries fs := by
  -- behind any entries whose keys are other texts
  have behind : ∀ before : List (Value × Value),
      (∀ f ∈ fs, ∀ e ∈ before, Value.sameKey e.1 (.text f.1) = false) →
      (toEntries fs).foldl (fun m e => Value.putEntry e.1 e.2 m) before =
        before ++ toEntries fs := by
    induction fs with
    | nil => simp [toEntries]
    | cons f fs ih =>
      intro before new
      rw [List.map_cons, List.nodup_cons] at distinct
      rw [toEntries, List.foldl_cons, Value.putEntry_of_new (new f List.mem_cons_self),
        ih distinct.2, List.append_assoc, List.singleton_append]
      intro g member e h
      rcases List.mem_append.1 h with old | added
      · exact new g (List.mem_cons_of_mem f member) e old
      · rw [List.mem_singleton.1 added, Value.sameKey_text, beq_eq_false_iff_ne]
        rintro same
        exact distinct.1 (same ▸ List.mem_map_of_mem (f := Prod.fst) member)
  exact behind [] fun _ _ _ h => nomatch h

mutual

/-- No object in the data, at any depth, has a key twice. -/
def DistinctKeys : Datum → Prop
  | null | bool _ | text _ => True
  | list ds => AllDistinct ds
  | object fs => (fs.map Prod.fst).Nodup ∧ FieldsDistinct fs

def AllDistinct : List Datum → Prop
  | [] => True
  | d :: ds => DistinctKeys d ∧ AllDistinct ds

def FieldsDistinct : List (String × Datum) → Prop
  | [] => True
  | (_, d) :: fs => DistinctKeys d ∧ FieldsDistinct fs

end

theorem allDistinct_of_forall {ds : List Datum} (each : ∀ d ∈ ds, DistinctKeys d) :
    AllDistinct ds := by
  induction ds with
  | nil => trivial
  | cons d ds ih =>
    exact ⟨each d List.mem_cons_self, ih fun e member => each e (List.mem_cons_of_mem d member)⟩

theorem fieldsDistinct_of_forall {fs : List (String × Datum)}
    (each : ∀ f ∈ fs, DistinctKeys f.2) : FieldsDistinct fs := by
  induction fs with
  | nil => trivial
  | cons f fs ih =>
    exact ⟨each f List.mem_cons_self, ih fun g member => each g (List.mem_cons_of_mem f member)⟩

theorem AllDistinct.of_mem {ds : List Datum} (all : AllDistinct ds) : ∀ d ∈ ds, DistinctKeys d := by
  induction ds with
  | nil => exact fun _ member => nomatch member
  | cons d ds ih =>
    intro e member
    rcases List.mem_cons.1 member with rfl | later
    · exact all.1
    · exact ih all.2 e later

theorem FieldsDistinct.of_mem {fs : List (String × Datum)} (all : FieldsDistinct fs) :
    ∀ f ∈ fs, DistinctKeys f.2 := by
  induction fs with
  | nil => exact fun _ member => nomatch member
  | cons f fs ih =>
    intro g member
    rcases List.mem_cons.1 member with rfl | later
    · exact all.1
    · exact ih all.2 g later

theorem distinctKeys_texts (ss : List String) : DistinctKeys (texts ss) := by
  refine allDistinct_of_forall fun d member => ?_
  obtain ⟨s, _, rfl⟩ := List.mem_map.1 member
  trivial

theorem distinctKeys_textFields {fs : List (String × String)}
    (distinct : (fs.map Prod.fst).Nodup) : DistinctKeys (textFields fs) := by
  constructor
  · rw [List.map_map]
    exact distinct
  · refine fieldsDistinct_of_forall fun f member => ?_
    obtain ⟨g, _, rfl⟩ := List.mem_map.1 member
    trivial

end Datum

theorem PlannedUnit.distinctKeys_toDatum (u : PlannedUnit) : u.toDatum.DistinctKeys := by
  constructor
  · change ["namespace", "header", "imports", "documentation", "xml_namespace"].Nodup
    decide
  · refine ⟨trivial, trivial, Datum.distinctKeys_texts _, trivial, ?_, trivial⟩
    cases u.xmlNamespace <;> trivial

theorem Manifest.distinctKeys_toDatum {m : Manifest}
    (distinct : (m.namespaces.map Prod.fst).Nodup) : m.toDatum.DistinctKeys := by
  constructor
  · change ["root_namespace", "optimize", "namespaces", "units", "output_namespaces"].Nodup
    decide
  · refine ⟨trivial, trivial, Datum.distinctKeys_textFields distinct, ?_,
      Datum.distinctKeys_texts _, trivial⟩
    refine Datum.allDistinct_of_forall fun d member => ?_
    obtain ⟨u, _, rfl⟩ := List.mem_map.1 member
    exact u.distinctKeys_toDatum

theorem Manifest.nodup_keys_of (us : List PlannedUnit) (table : OrderedMap String String)
    (root : String) (optimize : Bool) :
    ((Manifest.of us table root optimize).namespaces.map Prod.fst).Nodup :=
  ((sortedEntries_perm table).map Prod.fst).nodup_iff.2 table.nodup_keys

end NamespacePlan
