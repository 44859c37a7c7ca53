import Mathlib.Data.List.Forall2
import NamespacePlan.Proofs.BaseDocument
import NamespacePlan.Proofs.OutputNames

/-! Plans of the same schemas under two roots. Every name that a plan builds is a key put below the
root, and no lookup sees more of it than the key; so a change of the root changes nothing but the
root in front of the names. -/
namespace NamespacePlan

open Identifier

/-- Names that agree behind the one root and the other. -/
inductive Parallel (root other : String) : String → String → Prop where
  | behind (s : String) : Parallel root other (root ++ s) (other ++ s)

namespace Parallel

theorem qualify (root other key : String) :
    Parallel root other (Identifier.qualify root key) (Identifier.qualify other key) := by
  by_cases empty : key = ""
  · rw [Identifier.qualify, Identifier.qualify, if_pos empty, if_pos empty]
    have whole : Parallel root other (root ++ "") (other ++ "") := .behind ""
    rwa [String.append_empty, String.append_empty] at whole
  · rw [qualify_of_ne_empty empty, qualify_of_ne_empty empty, String.append_assoc,
      String.append_assoc]
    exact behind ("." ++ key)

theorem map_qualify (root other : String) (keys : List String) :
    List.Forall₂ (Parallel root other) (keys.map (Identifier.qualify root))
      (keys.map (Identifier.qualify other)) := by
  rw [List.forall₂_map_left_iff, List.forall₂_map_right_iff, List.forall₂_same]
  exact fun key _ => qualify root other key

end Parallel

/-! Imports, told without the root. -/

namespace ImportGraph

/-- The key under which a bare graph holds the imports of a sub-namespace. -/
def bareKey (key uri : String) : String :=
  if uri = baseDocument then (if key = "" then "Abs" else key ++ "." ++ "Abs") else key

def bareImports (optimize : Bool) (key uri : String) : List String :=
  ((select optimize).get? (bareKey key uri)).getD []

end ImportGraph

namespace Planner

open ImportGraph

theorem lookupKey_qualify (p : Planner) (root key uri : String) :
    p.resolver.lookupKey (qualify root key) (some uri) = qualify root (bareKey key uri) := by
  rw [lookupKey_eq, bareKey]
  by_cases base : uri = baseDocument
  · rw [if_pos base, if_pos base]
    by_cases empty : key = ""
    · rw [if_pos empty, qualify, if_pos empty, abstract_eq]
    · have named : key ++ "." ++ "Abs" ≠ "" := by
        intro nothing
        have characters := congrArg String.toList nothing
        simp at characters
      rw [if_neg empty, qualify_of_ne_empty empty, qualify_of_ne_empty named]
      simp only [String.append_assoc]
  · rw [if_neg base, if_neg base]

theorem importsFor_qualify (ds : List Descriptor) (root : String) (optimize strict : Bool)
    (home key uri : String) :
    (ofSchemas ds root optimize strict home).resolver.importsFor (qualify root key) (some uri) =
      (bareImports optimize key uri).map (qualify root) := by
  rw [ImportResolver.importsFor, lookupKey_qualify]
  change ((qualified root (select optimize)).get? _).getD [] = _
  rw [get?_qualified, bareImports]
  cases (select optimize).get? (bareKey key uri) with
  | none => rfl
  | some deps => rfl

/-! The two constructions and the two plans. -/

theorem outcome_build_of_conflict {ds : List Descriptor} {root : String} {c : Conflict}
    (named : root ≠ "") (failed : Prefixes.collect ds = .error c) (optimize strict : Bool)
    (home : String) : (build ds root optimize strict home).outcome = .error (.conflict c) := by
  have table : (NamespaceTable.build ds root optimize strict).outcome = .error (.conflict c) := by
    rw [NamespaceTable.outcome_build, NamespaceTable.build?, if_neg named, failed]
  rw [build, Reported.bind_of_error table]

theorem keys_ofSchemas (ds : List Descriptor) (root other : String) (optimize strict : Bool)
    (home : String) :
    (ofSchemas ds root optimize strict home).table.entries.keys =
      (ofSchemas ds other optimize strict home).table.entries.keys :=
  (NamespaceTable.keys_entriesOf ds root defaultOverrides).trans
    (NamespaceTable.keys_entriesOf ds other defaultOverrides).symm

/-- Under any two roots the schemas fail over the same conflict, or give tables over the same URIs
whose outputs and imports agree behind the roots. -/
theorem root_change_exact (ds : List Descriptor) {root other : String} (named : root ≠ "")
    (named' : other ≠ "") (optimize strict : Bool) (home : String) :
    (∃ c, (build ds root optimize strict home).outcome = .error (.conflict c) ∧
      (build ds other optimize strict home).outcome = .error (.conflict c)) ∨
    ∃ p q, (build ds root optimize strict home).outcome = .ok p ∧
      (build ds other optimize strict home).outcome = .ok q ∧
      p.table.entries.keys = q.table.entries.keys ∧
      ∀ uri ∈ p.table.entries.keys, ∃ x y u v,
        p.table.entries.get? uri = some x ∧ q.table.entries.get? uri = some y ∧
        Parallel root other x y ∧
        (p.planNamespace uri).outcome = .ok u ∧ (q.planNamespace uri).outcome = .ok v ∧
        List.Forall₂ (Parallel root other) u.imports v.imports := by
  by_cases single : SinglePrefix ds
  · have finished := fun r nonempty =>
      (outcome_build_eq_ok_iff ds r optimize strict home _).2 ⟨nonempty, single, rfl⟩
    have exact_table := fun r =>
      NamespaceTable.get?_ofSchemas_iff single r optimize strict defaultOverrides
    refine Or.inr ⟨_, _, finished root named, finished other named',
      keys_ofSchemas ds root other optimize strict home, fun uri member => ?_⟩
    obtain ⟨x, listed⟩ := (OrderedMap.mem_keys_iff _ _).1 member
    obtain ⟨key, _, rfl, assigned⟩ := exists_key ((exact_table root uri _).1 listed)
    have listed' := (exact_table other uri _).2 (assigned other)
    refine ⟨_, _, _, _, listed, listed', .qualify root other key,
      outcome_planNamespace_of_listed listed, outcome_planNamespace_of_listed listed', ?_⟩
    simp only [unitAt, importsFor_qualify]
    exact Parallel.map_qualify root other _
  · obtain ⟨c, failed⟩ := Prefixes.collect_of_conflict single
    exact Or.inl ⟨c, outcome_build_of_conflict named failed optimize strict home,
      outcome_build_of_conflict named' failed optimize strict home⟩

/-- A base document at the root, beside a library that a prefix names. -/
def unmovedBase : List Descriptor :=
  [⟨baseDocument, OrderedMap.ofList [("cac", "urn:cac")], some true, none⟩]

/-- The two roots are a namespace and its abstract sub-namespace. -/
theorem abstract_root_parallel :
    "Ubl" ≠ "" ∧ "Ubl.Abs" ≠ "" ∧
    ∃ p q u v, (build unmovedBase "Ubl").outcome = .ok p ∧
      (build unmovedBase "Ubl.Abs").outcome = .ok q ∧
      p.table.entries.keys = q.table.entries.keys ∧
      (p.planNamespace baseDocument).outcome = .ok u ∧ u.imports = ["Ubl.Udt", "Ubl.Ext", "Ubl.Cbc"] ∧
      (q.planNamespace baseDocument).outcome = .ok v ∧
      List.Forall₂ (Parallel "Ubl" "Ubl.Abs") u.imports v.imports := by
  have named : "Ubl" ≠ "" := by decide
  have named' : "Ubl.Abs" ≠ "" := by decide
  have built := (outcome_build_eq_ok_iff unmovedBase "Ubl" false false defaultHome _).2
    ⟨named, by decide, rfl⟩
  have atRoot : (ofSchemas unmovedBase "Ubl" false false defaultHome).table.entries.get?
      baseDocument = some "Ubl" := by decide
  have member := (OrderedMap.mem_keys_iff _ _).2 ⟨_, atRoot⟩
  rcases root_change_exact unmovedBase named named' false false defaultHome with
    ⟨c, failed, _⟩ | ⟨p, q, first, second, keys, each⟩
  · cases built.symm.trans failed
  · cases Except.ok.inj (built.symm.trans first)
    obtain ⟨_, _, u, v, _, _, _, planned, planned', imports⟩ := each baseDocument member
    cases Except.ok.inj ((outcome_planNamespace_of_listed atRoot).symm.trans planned)
    exact ⟨named, named', _, q, _, v, first, second, keys, planned, by decide, planned',
      imports⟩

end Planner

end NamespacePlan
