import NamespacePlan.NamespaceTable
import NamespacePlan.Proofs.Bindings
import NamespacePlan.Proofs.MapWrites

/-! What a finished table holds. Three layers decide where a URI goes: the last rule that names it,
else the prefix it is bound under, else its being a main document. The keys stand in the order in
which the layers meet them. -/
namespace NamespacePlan

open Distinct

def ruledUris (os : List Override) : List String := (os.map Override.uri).eraseDups

def maindocUris (ds : List Descriptor) : List String :=
  ((ds.filter Descriptor.isMaindoc).map Descriptor.target).eraseDups

/-- A main document of the set defines the URI. -/
def IsMaindoc (ds : List Descriptor) (uri : String) : Prop :=
  ∃ d ∈ ds, d.isMaindoc = true ∧ d.target = uri

def Free (os : List Override) (uri : String) : Prop := ∀ o ∈ os, o.uri ≠ uri

/-- Where a URI goes, layer by layer; none when no layer knows it. -/
inductive Assigned (ds : List Descriptor) (root : String) (os : List Override) (uri : String) :
    Option String → Prop where
  | ruled {before after : List Override} {o : Override} (rules : os = before ++ o :: after)
      (names : o.uri = uri) (last : Free after uri) :
      Assigned ds root os uri (some (Identifier.qualify root o.key))
  | bound {p : String} (free : Free os uri) (binds : Binds ds uri p) :
      Assigned ds root os uri (some (root ++ "." ++ Identifier.pascal p))
  | maindoc (free : Free os uri) (unbound : ¬ Bound ds uri) (main : IsMaindoc ds uri) :
      Assigned ds root os uri (some root)
  | missing (free : Free os uri) (unbound : ¬ Bound ds uri) (other : ¬ IsMaindoc ds uri) :
      Assigned ds root os uri none

theorem mem_maindocUris_iff (ds : List Descriptor) (uri : String) :
    uri ∈ maindocUris ds ↔ IsMaindoc ds uri := by
  simp only [maindocUris, List.mem_eraseDups, List.mem_map, List.mem_filter, IsMaindoc, and_assoc]

instance (os : List Override) (uri : String) : Decidable (Free os uri) :=
  inferInstanceAs (Decidable (∀ o ∈ os, _))

instance (ds : List Descriptor) (uri : String) : Decidable (IsMaindoc ds uri) :=
  decidable_of_iff _ (mem_maindocUris_iff ds uri)

theorem exists_last_rule {os : List Override} {uri : String} (ruled : ¬ Free os uri) :
    ∃ before o after, os = before ++ o :: after ∧ o.uri = uri ∧ Free after uri := by
  induction os with
  | nil => exact absurd (fun o member => nomatch member) ruled
  | cons x os ih =>
    -- the head is the last one exactly when no later rule names the URI
    by_cases later : Free os uri
    · have names : x.uri = uri := by
        apply Decidable.byContradiction
        intro other
        refine ruled fun o member => ?_
        rcases List.mem_cons.1 member with rfl | h
        · exact other
        · exact later o h
      exact ⟨[], x, os, rfl, names, later⟩
    · obtain ⟨before, o, after, rules, names, last⟩ := ih later
      exact ⟨x :: before, o, after, by rw [rules, List.cons_append], names, last⟩

theorem exists_assigned (ds : List Descriptor) (root : String) (os : List Override)
    (uri : String) : ∃ v, Assigned ds root os uri v := by
  by_cases free : Free os uri
  · by_cases bound : Bound ds uri
    · obtain ⟨p, binds⟩ := bound
      exact ⟨_, .bound free binds⟩
    · by_cases main : IsMaindoc ds uri
      · exact ⟨_, .maindoc free bound main⟩
      · exact ⟨_, .missing free bound main⟩
  · obtain ⟨before, o, after, rules, names, last⟩ := exists_last_rule free
    exact ⟨_, .ruled rules names last⟩

namespace NamespaceTable

/-! The layer of the prefixes. -/

theorem keys_fromPrefixes (root : String) (ds : List Descriptor) :
    (fromPrefixes root (Prefixes.declared ds).eraseDups).keys = boundUris ds := by
  rw [fromPrefixes, OrderedMap.keys_ofList, List.map_map]
  exact eraseDups_map_eraseDups Prod.snd (Prefixes.declared ds)

theorem get?_fromPrefixes_of_binds {ds : List Descriptor} (single : SinglePrefix ds)
    {uri p : String} (binds : Binds ds uri p) (root : String) :
    (fromPrefixes root (Prefixes.declared ds).eraseDups).get? uri =
      some (root ++ "." ++ Identifier.pascal p) := by
  have member : (p, uri) ∈ (Prefixes.declared ds).eraseDups :=
    List.mem_eraseDups.2 ((Prefixes.mem_declared_iff ds _).2 binds)
  have agree : ∀ b ∈ (Prefixes.declared ds).eraseDups, b.2 = uri →
      root ++ "." ++ Identifier.pascal b.1 = root ++ "." ++ Identifier.pascal p := by
    intro b hb same
    have other := (Prefixes.mem_declared_iff ds b).1 (List.mem_eraseDups.1 hb)
    rw [single uri b.1 p (same ▸ other) binds]
  rw [fromPrefixes, OrderedMap.ofList, List.foldl_map]
  exact OrderedMap.get?_foldl_insert_of_agree (fun b : String × String => b.2)
    (fun b => root ++ "." ++ Identifier.pascal b.1) member agree OrderedMap.empty

theorem get?_fromPrefixes_of_unbound {ds : List Descriptor} {uri : String}
    (unbound : ¬ Bound ds uri) (root : String) :
    (fromPrefixes root (Prefixes.declared ds).eraseDups).get? uri = none := by
  rw [OrderedMap.get?_eq_none_iff, keys_fromPrefixes, mem_boundUris_iff]
  exact unbound

/-! The layer of the rules. -/

theorem keys_applyOverrides (root : String) (os : List Override)
    (t : OrderedMap String String) :
    (applyOverrides root os t).keys = t.keys ++ (ruledUris os).filter (· ∉ t.keys) :=
  OrderedMap.keys_foldl_insert Override.uri (fun o => Identifier.qualify root o.key) os t

theorem get?_applyOverrides_of_free {os : List Override} {uri : String} (free : Free os uri)
    (root : String) (t : OrderedMap String String) :
    (applyOverrides root os t).get? uri = t.get? uri :=
  OrderedMap.get?_foldl_insert_of_unwritten Override.uri
    (fun o => Identifier.qualify root o.key) free t

theorem get?_applyOverrides_of_last (before : List Override) (o : Override)
    {after : List Override} (last : Free after o.uri) (root : String)
    (t : OrderedMap String String) :
    (applyOverrides root (before ++ o :: after) t).get? o.uri =
      some (Identifier.qualify root o.key) :=
  OrderedMap.get?_foldl_insert_of_last Override.uri
    (fun o => Identifier.qualify root o.key) before o last t

/-! The layer of the main documents. -/

theorem addMaindocs_eq (root : String) (ds : List Descriptor) (t : OrderedMap String String) :
    addMaindocs root ds t =
      ((ds.filter Descriptor.isMaindoc).map Descriptor.target).foldl
        (fun t uri => t.insertNew uri root) t := by
  rw [addMaindocs, List.foldl_map, List.foldl_filter]

theorem keys_addMaindocs (root : String) (ds : List Descriptor) (t : OrderedMap String String) :
    (addMaindocs root ds t).keys = t.keys ++ (maindocUris ds).filter (· ∉ t.keys) := by
  rw [addMaindocs_eq, OrderedMap.keys_foldl_insertNew, maindocUris]

theorem get?_addMaindocs (root : String) (ds : List Descriptor) (t : OrderedMap String String)
    (uri : String) :
    (addMaindocs root ds t).get? uri =
      (t.get? uri).or (if IsMaindoc ds uri then some root else none) := by
  have listed := mem_maindocUris_iff ds uri
  rw [maindocUris, List.mem_eraseDups] at listed
  rw [addMaindocs_eq, OrderedMap.get?_foldl_insertNew]
  by_cases main : IsMaindoc ds uri
  · rw [if_pos main, if_pos (listed.2 main)]
  · rw [if_neg main, if_neg fun h => main (listed.1 h)]

/-! The finished table. -/

/-- The value of an assigned URI, whatever the layer. -/
theorem get?_entriesOf {ds : List Descriptor} (single : SinglePrefix ds) {root : String}
    {os : List Override} {uri : String} {v : Option String}
    (assigned : Assigned ds root os uri v) :
    (entriesOf ds root os (Prefixes.declared ds).eraseDups).get? uri = v := by
  rw [entriesOf, get?_addMaindocs]
  cases assigned with
  | ruled rules names last =>
    subst names
    rw [rules, get?_applyOverrides_of_last _ _ last, Option.some_or]
  | bound free binds =>
    rw [get?_applyOverrides_of_free free, get?_fromPrefixes_of_binds single binds, Option.some_or]
  | maindoc free unbound main =>
    rw [get?_applyOverrides_of_free free, get?_fromPrefixes_of_unbound unbound, if_pos main]
    rfl
  | missing free unbound other =>
    rw [get?_applyOverrides_of_free free, get?_fromPrefixes_of_unbound unbound, if_neg other]
    rfl

theorem keys_entriesOf (ds : List Descriptor) (root : String) (os : List Override) :
    (entriesOf ds root os (Prefixes.declared ds).eraseDups).keys =
      boundUris ds ++ (ruledUris os).filter (· ∉ boundUris ds) ++
        (maindocUris ds).filter fun uri => uri ∉ boundUris ds ∧ uri ∉ ruledUris os := by
  rw [entriesOf, keys_addMaindocs, keys_applyOverrides, keys_fromPrefixes]
  congr 1
  refine List.filter_congr fun uri _ => decide_eq_decide.2 ?_
  simp only [List.mem_append, List.mem_filter, decide_eq_true_eq, not_or]
  constructor
  · rintro ⟨unbound, rest⟩
    exact ⟨unbound, fun ruled => rest ⟨ruled, unbound⟩⟩
  · rintro ⟨unbound, unruled⟩
    exact ⟨unbound, fun both => unruled both.1⟩

def ofSchemas (ds : List Descriptor) (root : String) (optimize strict : Bool)
    (os : List Override) : NamespaceTable :=
  ⟨ds, root, optimize, strict, entriesOf ds root os (Prefixes.declared ds).eraseDups⟩

theorem outcome_build (ds : List Descriptor) (root : String) (optimize strict : Bool)
    (os : List Override) :
    (build ds root optimize strict os).outcome = build? ds root optimize strict os := by
  unfold build
  cases h : build? ds root optimize strict os <;> rfl

/-- A table is finished exactly when there is a root and no conflict. -/
theorem outcome_build_eq_ok_iff (ds : List Descriptor) (root : String) (optimize strict : Bool)
    (os : List Override) (t : NamespaceTable) :
    (build ds root optimize strict os).outcome = .ok t ↔
      root ≠ "" ∧ SinglePrefix ds ∧ t = ofSchemas ds root optimize strict os := by
  rw [outcome_build, build?]
  by_cases empty : root = ""
  · simp [empty]
  · rw [if_neg empty]
    by_cases single : SinglePrefix ds
    · rw [Prefixes.collect_of_single single]
      simp only [Except.ok.injEq, ne_eq, empty, not_false_eq_true, single, true_and, ofSchemas]
      exact eq_comm
    · obtain ⟨c, failed⟩ := Prefixes.collect_of_conflict single
      simp [failed, single]

/-- A table fails over its prefixes exactly when there is a root and a conflict. -/
theorem outcome_build_conflict_iff (ds : List Descriptor) (root : String)
    (optimize strict : Bool) (os : List Override) :
    (∃ c, (build ds root optimize strict os).outcome = .error (.conflict c)) ↔
      root ≠ "" ∧ ¬ SinglePrefix ds := by
  simp only [outcome_build, build?]
  by_cases empty : root = ""
  · simp [empty]
  · simp only [if_neg empty]
    by_cases single : SinglePrefix ds
    · simp [Prefixes.collect_of_single single, single]
    · obtain ⟨c, failed⟩ := Prefixes.collect_of_conflict single
      simp [failed, single, empty]

theorem get?_ofSchemas_iff {ds : List Descriptor} (single : SinglePrefix ds) (root : String)
    (optimize strict : Bool) (os : List Override) (uri : String) (v : Option String) :
    (ofSchemas ds root optimize strict os).entries.get? uri = v ↔ Assigned ds root os uri v := by
  constructor
  · intro found
    obtain ⟨w, assigned⟩ := exists_assigned ds root os uri
    have same : w = v := (get?_entriesOf single assigned).symm.trans found
    exact same ▸ assigned
  · exact fun assigned => get?_entriesOf single assigned

/-- A finished table sends every URI where its layers assign it, gives a bound URI one prefix, and
lists its keys once, layer by layer. -/
theorem table_exact {ds : List Descriptor} {root : String} {optimize strict : Bool}
    {os : List Override} {t : NamespaceTable}
    (built : (build ds root optimize strict os).outcome = .ok t) :
    (∀ uri v, t.entries.get? uri = v ↔ Assigned ds root os uri v) ∧
    (∀ uri p q, Binds ds uri p → Binds ds uri q → p = q) ∧
    t.entries.keys.Nodup ∧
    t.entries.keys = boundUris ds ++ (ruledUris os).filter (· ∉ boundUris ds) ++
      (maindocUris ds).filter fun uri => uri ∉ boundUris ds ∧ uri ∉ ruledUris os := by
  obtain ⟨_, single, rfl⟩ := (outcome_build_eq_ok_iff ds root optimize strict os t).1 built
  exact ⟨get?_ofSchemas_iff single root optimize strict os, single,
    OrderedMap.nodup_keys _, keys_entriesOf ds root os⟩

/-- Schemas that bind one URI twice, one that a rule names and one that is a main document. -/
def layeredSchemas : List Descriptor :=
  [⟨"urn:doc", OrderedMap.ofList [("", "urn:doc"), ("cac", "urn:cac"), ("sig", "urn:sig")],
     some true, none⟩,
   ⟨"urn:ds", OrderedMap.ofList [("cac", "urn:cac"), ("ds", "urn:ds")], some true, none⟩]

/-- Rules that name one URI twice. -/
def layeredRules : List Override := [⟨"urn:sig", "Old"⟩, ⟨"urn:new", "New"⟩, ⟨"urn:sig", "Sig"⟩]

theorem layered_table_exact :
    ∃ t, (build layeredSchemas "Root" false false layeredRules).outcome = .ok t ∧
      Assigned layeredSchemas "Root" layeredRules "urn:sig" (some "Root.Sig") ∧
      Assigned layeredSchemas "Root" layeredRules "urn:ds" (some "Root.DS") ∧
      Assigned layeredSchemas "Root" layeredRules "urn:doc" (some "Root") ∧
      Assigned layeredSchemas "Root" layeredRules "urn:other" none ∧
      t.entries.keys = ["urn:cac", "urn:sig", "urn:ds", "urn:new", "urn:doc"] := by
  have built := (outcome_build_eq_ok_iff layeredSchemas "Root" false false layeredRules _).2
    ⟨by decide, by decide +kernel, rfl⟩
  obtain ⟨value, _, _, order⟩ := table_exact built
  exact ⟨_, built, (value "urn:sig" _).1 (by decide +kernel), (value "urn:ds" _).1 (by decide +kernel),
    (value "urn:doc" _).1 (by decide +kernel), (value "urn:other" _).1 (by decide +kernel),
    order.trans (by decide +kernel)⟩

end NamespaceTable

end NamespacePlan
