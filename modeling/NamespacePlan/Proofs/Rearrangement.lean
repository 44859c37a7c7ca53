import Mathlib.Logic.Equiv.Defs
import NamespacePlan.Proofs.ManifestViews
import NamespacePlan.Proofs.Planning

/-! Plans of the same schemas in another order. All that a table holds is told by which bindings and
which main documents there are, so two lists that cover each other have the same table, and their
plans differ only by the order of the units. -/
namespace NamespacePlan

open Distinct

/-- The same descriptor, its bindings perhaps declared in another order. -/
structure Descriptor.Rearranged (d e : Descriptor) : Prop where
  target : d.target = e.target
  bindings : d.bindings.entries.Perm e.bindings.entries
  maindoc : d.maindoc = e.maindoc
  location : d.location = e.location

theorem Descriptor.Rearranged.refl (d : Descriptor) : d.Rearranged d :=
  ⟨rfl, List.Perm.refl _, rfl, rfl⟩

theorem Descriptor.Rearranged.symm {d e : Descriptor} (h : d.Rearranged e) : e.Rearranged d :=
  ⟨h.target.symm, h.bindings.symm, h.maindoc.symm, h.location.symm⟩

/-- Every schema of the first list stands in the second one, perhaps rearranged. -/
def Covers (ds es : List Descriptor) : Prop := ∀ d ∈ ds, ∃ e ∈ es, d.Rearranged e

theorem Covers.binds {ds es : List Descriptor} (covers : Covers ds es) {uri p : String}
    (binds : Binds ds uri p) : Binds es uri p := by
  obtain ⟨counts, d, member, entry⟩ := binds
  obtain ⟨e, found, same⟩ := covers d member
  exact ⟨counts, e, found, same.bindings.mem_iff.1 entry⟩

theorem Covers.isMaindoc {ds es : List Descriptor} (covers : Covers ds es) {uri : String}
    (main : IsMaindoc ds uri) : IsMaindoc es uri := by
  obtain ⟨d, member, truthy, target⟩ := main
  obtain ⟨e, found, same⟩ := covers d member
  exact ⟨e, found, by rwa [Descriptor.isMaindoc, ← same.maindoc], same.target ▸ target⟩

/-- Lists that hold the same schemas, in whatever order and number. -/
structure SameSchemas (ds es : List Descriptor) : Prop where
  forth : Covers ds es
  back : Covers es ds

namespace SameSchemas

variable {ds es : List Descriptor}

theorem of_repeated {xs ys : List Descriptor} {d : Descriptor} (member : d ∈ xs ++ ys) :
    SameSchemas (xs ++ d :: ys) (xs ++ ys) := by
  constructor
  · intro e he
    have old : e ∈ xs ++ ys := by
      rcases List.mem_append.1 he with h | h
      · exact List.mem_append_left ys h
      · rcases List.mem_cons.1 h with rfl | h
        · exact member
        · exact List.mem_append_right xs h
    exact ⟨e, old, .refl e⟩
  · intro e he
    have new : e ∈ xs ++ d :: ys := by
      rcases List.mem_append.1 he with h | h
      · exact List.mem_append_left _ h
      · exact List.mem_append_right xs (List.mem_cons_of_mem d h)
    exact ⟨e, new, .refl e⟩

theorem of_permutation (σ : Fin es.length ≃ Fin ds.length)
    (rearranged : ∀ i, (ds.get (σ i)).Rearranged (es.get i)) : SameSchemas ds es := by
  constructor
  · intro d member
    obtain ⟨j, rfl⟩ := List.get_of_mem member
    have moved := rearranged (σ.symm j)
    rw [Equiv.apply_symm_apply] at moved
    exact ⟨_, List.get_mem es _, moved⟩
  · intro e member
    obtain ⟨i, rfl⟩ := List.get_of_mem member
    exact ⟨_, List.get_mem ds _, (rearranged i).symm⟩

theorem binds_iff (same : SameSchemas ds es) (uri p : String) :
    Binds ds uri p ↔ Binds es uri p := ⟨same.forth.binds, same.back.binds⟩

theorem singlePrefix_iff (same : SameSchemas ds es) : SinglePrefix ds ↔ SinglePrefix es := by
  simp only [SinglePrefix, same.binds_iff]

theorem assigned (same : SameSchemas ds es) {root : String} {os : List Override} {uri : String}
    {v : Option String} (h : Assigned ds root os uri v) : Assigned es root os uri v := by
  have bound : Bound es uri → Bound ds uri := fun ⟨p, binds⟩ => ⟨p, same.back.binds binds⟩
  cases h with
  | ruled rules names last => exact .ruled rules names last
  | bound free binds => exact .bound free (same.forth.binds binds)
  | maindoc free unbound main =>
    exact .maindoc free (fun h => unbound (bound h)) (same.forth.isMaindoc main)
  | missing free unbound other =>
    exact .missing free (fun h => unbound (bound h)) fun h => other (same.back.isMaindoc h)

theorem get?_ofSchemas (same : SameSchemas ds es) (single : SinglePrefix ds) (root : String)
    (optimize strict : Bool) (os : List Override) (uri : String) :
    (NamespaceTable.ofSchemas ds root optimize strict os).entries.get? uri =
      (NamespaceTable.ofSchemas es root optimize strict os).entries.get? uri := by
  have exact_left := NamespaceTable.get?_ofSchemas_iff single root optimize strict os uri
  have exact_right :=
    NamespaceTable.get?_ofSchemas_iff (same.singlePrefix_iff.1 single) root optimize strict os uri
  exact ((exact_right _).2 (same.assigned ((exact_left _).1 rfl))).symm

end SameSchemas

/-! Constructions of a table. -/

/-- Both constructions finish, or both fail over their prefixes; two tables are equal mappings. -/
structure SameConstruction (x y : Reported PlanError NamespaceTable) : Prop where
  finished : (∃ t, x.outcome = .ok t) ↔ ∃ u, y.outcome = .ok u
  conflict : (∃ c, x.outcome = .error (.conflict c)) ↔ ∃ c, y.outcome = .error (.conflict c)
  table : ∀ t u, x.outcome = .ok t → y.outcome = .ok u →
    ∀ uri, t.entries.get? uri = u.entries.get? uri

theorem SameSchemas.construction {ds es : List Descriptor} (same : SameSchemas ds es)
    (root : String) (optimize strict : Bool) (os : List Override) :
    SameConstruction (NamespaceTable.build ds root optimize strict os)
      (NamespaceTable.build es root optimize strict os) := by
  constructor
  · simp only [NamespaceTable.outcome_build_eq_ok_iff, exists_and_left, exists_eq, and_true,
      same.singlePrefix_iff]
  · rw [NamespaceTable.outcome_build_conflict_iff, NamespaceTable.outcome_build_conflict_iff,
      same.singlePrefix_iff]
  · intro t u first second
    obtain ⟨_, single, rfl⟩ := (NamespaceTable.outcome_build_eq_ok_iff _ _ _ _ _ t).1 first
    obtain ⟨_, _, rfl⟩ := (NamespaceTable.outcome_build_eq_ok_iff _ _ _ _ _ u).1 second
    exact same.get?_ofSchemas single root optimize strict os

namespace NamespaceTable

theorem addMaindocs_repeated {xs : List Descriptor} {d : Descriptor} (member : d ∈ xs)
    (ys : List Descriptor) (root : String) (t : OrderedMap String String) :
    addMaindocs root (xs ++ d :: ys) t = addMaindocs root (xs ++ ys) t := by
  have known : d.isMaindoc = true → d.target ∈ (addMaindocs root xs t).keys := by
    intro main
    have target := (mem_maindocUris_iff xs d.target).2 ⟨d, member, main, rfl⟩
    rw [keys_addMaindocs, List.mem_append]
    by_cases old : d.target ∈ t.keys
    · exact Or.inl old
    · exact Or.inr (List.mem_filter.2 ⟨target, decide_eq_true old⟩)
  simp only [addMaindocs, List.foldl_append, List.foldl_cons] at known ⊢
  by_cases main : d.isMaindoc = true
  · rw [if_pos main, OrderedMap.insertNew_of_mem (known main)]
  · rw [if_neg main]

/-- A schema that stands further to the left changes neither the outcome nor the entries. -/
theorem build_repeated {xs : List Descriptor} {d : Descriptor} (member : d ∈ xs)
    (ys : List Descriptor) (root : String) (optimize strict : Bool) (os : List Override) :
    (build (xs ++ d :: ys) root optimize strict os).outcome.map entries =
      (build (xs ++ ys) root optimize strict os).outcome.map entries := by
  rw [outcome_build, outcome_build, build?, build?,
    Prefixes.collect_congr (Prefixes.declared_repeated member ys)]
  by_cases empty : root = ""
  · rw [if_pos empty, if_pos empty]
  · rw [if_neg empty, if_neg empty]
    cases Prefixes.collect (xs ++ ys) with
    | error c => rfl
    | ok bs => simp only [Except.map, entriesOf, addMaindocs_repeated member ys]

end NamespaceTable

/-! Runs of a planner. -/

/-- Manifests that agree but for the order of their units, which the permutation tells. -/
structure Manifest.SameUpTo {a b : Nat} (σ : Fin b ≃ Fin a) (m n : Manifest) : Prop where
  root : m.root = n.root
  optimize : m.optimize = n.optimize
  namespaces : m.namespaces = n.namespaces
  outputs : m.outputs = n.outputs
  sizes : m.units.length = a ∧ n.units.length = b
  units : ∀ i, n.units[i.val]? = m.units[(σ i).val]?

/-- The manifest of units that the planner planned. -/
def Planner.manifest (p : Planner) (us : List PlannedUnit) : Manifest :=
  Manifest.of us p.table.entries p.table.root p.resolver.optimize

namespace SameSchemas

variable {ds es : List Descriptor}

theorem unitOf_ofSchemas (same : SameSchemas ds es) (single : SinglePrefix ds) (root : String)
    (optimize strict : Bool) (home uri : String) :
    (Planner.ofSchemas ds root optimize strict home).unitOf uri =
      (Planner.ofSchemas es root optimize strict home).unitOf uri := by
  have table := same.get?_ofSchemas single root optimize strict defaultOverrides
  have resolver : (Planner.ofSchemas ds root optimize strict home).resolver =
      (Planner.ofSchemas es root optimize strict home).resolver := by
    simp only [Planner.ofSchemas, table]
  have output : (Planner.ofSchemas ds root optimize strict home).table.entries.get? uri =
      (Planner.ofSchemas es root optimize strict home).table.entries.get? uri := table uri
  simp only [Planner.unitOf, Planner.unitAt, resolver, output]
  rfl

theorem strict_fails_iff (same : SameSchemas ds es) (single : SinglePrefix ds) (root : String)
    (optimize : Bool) (home : String) :
    (∃ e, (Planner.ofSchemas ds root optimize true home).planAll.outcome = .error e) ↔
      ∃ e, (Planner.ofSchemas es root optimize true home).planAll.outcome = .error e := by
  have table := same.get?_ofSchemas single root optimize true defaultOverrides
  have left := Planner.planEach_strict_fails_iff
    (p := Planner.ofSchemas ds root optimize true home) rfl ds
  have right := Planner.planEach_strict_fails_iff
    (p := Planner.ofSchemas es root optimize true home) rfl es
  refine left.trans (Iff.trans ?_ right.symm)
  constructor
  · rintro ⟨d, member, missing⟩
    obtain ⟨e, found, moved⟩ := same.forth d member
    refine ⟨e, found, ?_⟩
    rw [← moved.target]
    exact (table d.target).symm.trans missing
  · rintro ⟨e, member, missing⟩
    obtain ⟨d, found, moved⟩ := same.back e member
    refine ⟨d, found, ?_⟩
    rw [← moved.target]
    exact (table e.target).trans missing

end SameSchemas

section Permutation

variable {ds es : List Descriptor} (σ : Fin es.length ≃ Fin ds.length)
  (rearranged : ∀ i, (ds.get (σ i)).Rearranged (es.get i))

include rearranged

theorem manifest_sameUpTo (single : SinglePrefix ds) (root : String) (optimize strict : Bool)
    (home : String) :
    let p := Planner.ofSchemas ds root optimize strict home
    let q := Planner.ofSchemas es root optimize strict home
    (p.manifest (ds.map fun d => p.unitOf d.target)).SameUpTo σ
      (q.manifest (es.map fun e => q.unitOf e.target)) := by
  intro p q
  have same := SameSchemas.of_permutation σ rearranged
  have unit := same.unitOf_ofSchemas single root optimize strict home
  -- the sorted views depend on the mapping and on the set of units only
  refine ⟨rfl, rfl, ?_, ?_, ⟨List.length_map _, List.length_map _⟩, ?_⟩
  · exact Manifest.sortedEntries_congr
      (same.get?_ofSchemas single root optimize strict defaultOverrides)
  · apply Manifest.sortedNames_congr
    intro s
    simp only [List.mem_map]
    constructor
    · rintro ⟨_, ⟨d, member, rfl⟩, name⟩
      obtain ⟨e, found, moved⟩ := same.forth d member
      exact ⟨_, ⟨e, found, rfl⟩, by rw [← name, ← moved.target, ← unit]⟩
    · rintro ⟨_, ⟨e, member, rfl⟩, name⟩
      obtain ⟨d, found, moved⟩ := same.back e member
      exact ⟨_, ⟨d, found, rfl⟩, by rw [← name, ← moved.target, unit]⟩
  · intro i
    have target : ds[(σ i).val].target = es[i.val].target := (rearranged i).target
    change (es.map fun e => q.unitOf e.target)[i.val]? =
      (ds.map fun d => p.unitOf d.target)[(σ i).val]?
    rw [List.getElem?_map, List.getElem?_map, List.getElem?_eq_getElem i.isLt,
      List.getElem?_eq_getElem (σ i).isLt, Option.map_some, Option.map_some, target, unit]

/-- The order of the schemas and of their bindings decides nothing but the order of the units. -/
theorem rearranged_run_agrees (root : String) (optimize : Bool) :
    (∀ strict os, SameConstruction (NamespaceTable.build ds root optimize strict os)
      (NamespaceTable.build es root optimize strict os)) ∧
    (∀ strict os xs ys d, ds = xs ++ ys → d ∈ ds →
      SameConstruction (NamespaceTable.build (xs ++ d :: ys) root optimize strict os)
        (NamespaceTable.build ds root optimize strict os) ∧
      (d ∈ xs →
        (NamespaceTable.build (xs ++ d :: ys) root optimize strict os).outcome.map
            NamespaceTable.entries =
          (NamespaceTable.build ds root optimize strict os).outcome.map
            NamespaceTable.entries)) ∧
    (∀ home p, (Planner.build ds root optimize false home).outcome = .ok p →
      ∃ q us vs, (Planner.build es root optimize false home).outcome = .ok q ∧
        p.planAll.outcome = .ok us ∧ q.planAll.outcome = .ok vs ∧
        (p.manifest us).SameUpTo σ (q.manifest vs)) ∧
    (∀ home p, (Planner.build ds root optimize true home).outcome = .ok p →
      ∃ q, (Planner.build es root optimize true home).outcome = .ok q ∧
        ((∃ e, p.planAll.outcome = .error e) ↔ ∃ e, q.planAll.outcome = .error e)) := by
  have same := SameSchemas.of_permutation σ rearranged
  refine ⟨same.construction root optimize, ?_, ?_, ?_⟩
  · rintro strict os xs ys d rfl member
    exact ⟨(SameSchemas.of_repeated member).construction root optimize strict os,
      fun left => NamespaceTable.build_repeated left ys root optimize strict os⟩
  · intro home p built
    obtain ⟨named, single, rfl⟩ := (Planner.outcome_build_eq_ok_iff _ _ _ _ _ p).1 built
    refine ⟨_, _, _, (Planner.outcome_build_eq_ok_iff es root optimize false home _).2
      ⟨named, same.singlePrefix_iff.1 single, rfl⟩,
      (Planner.planAll_ofSchemas_lenient ds root optimize home).1,
      (Planner.planAll_ofSchemas_lenient es root optimize home).1, ?_⟩
    exact manifest_sameUpTo σ rearranged single root optimize false home
  · intro home p built
    obtain ⟨named, single, rfl⟩ := (Planner.outcome_build_eq_ok_iff _ _ _ _ _ p).1 built
    exact ⟨_, (Planner.outcome_build_eq_ok_iff es root optimize true home _).2
      ⟨named, same.singlePrefix_iff.1 single, rfl⟩, same.strict_fails_iff single root optimize home⟩

end Permutation

def givenSchemas : List Descriptor :=
  [⟨"urn:doc", OrderedMap.ofList [("", "urn:doc"), ("cac", "urn:cac")], some true, none⟩,
   ⟨"urn:x", OrderedMap.ofList [("ds", "urn:ds"), ("cac", "urn:cac")], none, none⟩]

def turnedSchemas : List Descriptor :=
  [⟨"urn:x", OrderedMap.ofList [("cac", "urn:cac"), ("ds", "urn:ds")], none, none⟩,
   ⟨"urn:doc", OrderedMap.ofList [("cac", "urn:cac"), ("", "urn:doc")], some true, none⟩]

def turn : Fin turnedSchemas.length ≃ Fin givenSchemas.length :=
  ⟨Fin.rev, Fin.rev, Fin.rev_rev, Fin.rev_rev⟩

theorem turned_run_agrees :
    (∀ i, (givenSchemas.get (turn i)).Rearranged (turnedSchemas.get i)) ∧
    ∃ p q us vs, (Planner.build givenSchemas "Ubl").outcome = .ok p ∧
      (Planner.build turnedSchemas "Ubl").outcome = .ok q ∧
      p.planAll.outcome = .ok us ∧ q.planAll.outcome = .ok vs ∧
      (p.manifest us).SameUpTo turn (q.manifest vs) := by
  have rearranged : ∀ i, (givenSchemas.get (turn i)).Rearranged (turnedSchemas.get i) := by
    have two : turnedSchemas.length = 2 := rfl
    rintro ⟨_ | _ | n, bound⟩
    · exact ⟨rfl, List.Perm.swap _ _ _, rfl, rfl⟩
    · exact ⟨rfl, List.Perm.swap _ _ _, rfl, rfl⟩
    · omega
  have built := (Planner.outcome_build_eq_ok_iff givenSchemas "Ubl" false false defaultHome _).2
    ⟨by decide, by decide +kernel, rfl⟩
  obtain ⟨_, _, lenient, _⟩ := rearranged_run_agrees turn rearranged "Ubl" false
  obtain ⟨q, us, vs, turned, first, second, agree⟩ := lenient defaultHome _ built
  exact ⟨rearranged, _, q, us, vs, built, turned, first, second, agree⟩

end NamespacePlan
