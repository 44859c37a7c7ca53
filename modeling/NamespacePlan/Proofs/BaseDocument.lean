import NamespacePlan.Proofs.Planning
import NamespacePlan.Proofs.QualifiedGraph

/-! Under which key the base document finds its imports. The key is built from the output namespace,
so it is the abstract one of the root exactly as long as no prefix moves the base document away. -/
namespace NamespacePlan

open Identifier

/-! What a listed URI can go to under the default rules. -/

/-- The three ways of being listed, with the output of each. -/
theorem listed_cases {ds : List Descriptor} {root : String} {os : List Override}
    {uri output : String} (assigned : Assigned ds root os uri (some output)) :
    (∃ o ∈ os, o.uri = uri ∧ output = qualify root o.key) ∨
    (Free os uri ∧ ∃ q, Binds ds uri q ∧ output = root ++ "." ++ pascal q) ∨
    (Free os uri ∧ ¬ Bound ds uri ∧ output = root) := by
  cases assigned with
  | ruled rules names last =>
    exact Or.inl ⟨_, rules ▸ List.mem_append_right _ List.mem_cons_self, names, rfl⟩
  | bound free binds => exact Or.inr (Or.inl ⟨free, _, binds, rfl⟩)
  | maindoc free unbound main => exact Or.inr (Or.inr ⟨free, unbound, rfl⟩)

theorem free_baseDocument : Free defaultOverrides baseDocument := by decide

theorem default_keys : ∀ o ∈ defaultOverrides, o.key ≠ "" ∧ o.key ≠ "Abs" := by decide

theorem abstract_eq (output : String) : qualify output "Abs" = output ++ "." ++ "Abs" :=
  qualify_of_ne_empty (by decide) output

theorem abstract_text (output : String) : output ++ "." ++ "Abs" = output ++ ".Abs" := by
  rw [String.append_assoc]
  rfl

/-- The abstract key of a segment below the root is another one than that of the root. -/
theorem abstract_below_ne (root s : String) :
    root ++ "." ++ s ++ "." ++ "Abs" ≠ root ++ "." ++ "Abs" := by
  intro same
  rw [String.append_assoc, String.append_assoc] at same
  have tails := congrArg (fun t => t.toList.length) (below_injective same)
  simp at tails

namespace Planner

theorem lookupKey_eq (p : Planner) (output uri : String) :
    p.resolver.lookupKey output (some uri) =
      if uri = baseDocument then output ++ "." ++ "Abs" else output := by
  simp only [ImportResolver.lookupKey, ImportResolver.isBase, beq_iff_eq, abstract_eq]

/-- Where the base document stands: at the root, unless a prefix moves it below. -/
theorem base_output {ds : List Descriptor} {root output : String}
    (assigned : Assigned ds root defaultOverrides baseDocument (some output)) :
    (¬ Bound ds baseDocument ∧ output = root) ∨
    (Bound ds baseDocument ∧ ∃ s, output = root ++ "." ++ s) := by
  rcases listed_cases assigned with ⟨o, member, names, _⟩ | ⟨_, q, binds, rfl⟩ | ⟨_, unbound, rfl⟩
  · exact absurd names (free_baseDocument o member)
  · exact Or.inr ⟨⟨q, binds⟩, _, rfl⟩
  · exact Or.inl ⟨unbound, rfl⟩

theorem base_key_iff {ds : List Descriptor} {root output : String}
    (assigned : Assigned ds root defaultOverrides baseDocument (some output)) :
    output ++ "." ++ "Abs" = root ++ "." ++ "Abs" ↔ ¬ Bound ds baseDocument := by
  rcases base_output assigned with ⟨unbound, rfl⟩ | ⟨bound, s, rfl⟩
  · exact ⟨fun _ => unbound, fun _ => rfl⟩
  · exact ⟨fun same => absurd same (abstract_below_ne root s), fun unbound => absurd bound unbound⟩

theorem other_key_iff {ds : List Descriptor} (single : SinglePrefix ds)
    {root uri output : String}
    (assigned : Assigned ds root defaultOverrides uri (some output)) :
    output = root ++ "." ++ "Abs" ↔
      Free defaultOverrides uri ∧ ∃ q, Binds ds uri q ∧ pascal q = "Abs" := by
  constructor
  · intro key
    rcases listed_cases assigned with ⟨o, member, _, ruled⟩ | ⟨free, q, binds, bound⟩ | ⟨_, _, main⟩
    · have other := default_keys o member
      rw [key, qualify_of_ne_empty other.1] at ruled
      exact absurd (below_injective ruled).symm other.2
    · exact ⟨free, q, binds, (below_injective (key.symm.trans bound)).symm⟩
    · exact absurd (key.symm.trans main) (below_ne_root root "Abs")
  · rintro ⟨free, q, binds, name⟩
    cases assigned with
    | ruled rules names last =>
      exact absurd names (free _ (rules ▸ List.mem_append_right _ List.mem_cons_self))
    | bound _ other => rw [single uri _ q other binds, name]
    | maindoc _ unbound _ => exact absurd ⟨q, binds⟩ unbound

/-- The imports of the base document are the abstract ones of the root unless a prefix moves it. -/
theorem base_imports_iff {ds : List Descriptor} {root output : String} (optimize strict : Bool)
    (home : String) (assigned : Assigned ds root defaultOverrides baseDocument (some output)) :
    let p := ofSchemas ds root optimize strict home
    p.resolver.graph.get? (root ++ ".Abs") =
        some (p.resolver.importsFor output (some baseDocument)) ↔
      ¬ Bound ds baseDocument := by
  intro p
  obtain ⟨deps, entry, some_deps⟩ := ImportGraph.get?_build_abstract optimize root
  have key : p.resolver.lookupKey output (some baseDocument) = output ++ "." ++ "Abs" := by
    rw [lookupKey_eq, if_pos rfl]
  change (ImportGraph.build optimize root).get? _ =
    some (((ImportGraph.build optimize root).get? _).getD []) ↔ _
  rw [key, entry]
  rcases base_output assigned with ⟨unbound, rfl⟩ | ⟨bound, s, rfl⟩
  · rw [abstract_text, entry]
    exact ⟨fun _ => unbound, fun _ => rfl⟩
  · -- the moved key has two segments below the root, and no key of a graph has
    have dotted : '.' ∈ (s ++ "." ++ "Abs").toList := by simp
    have outside := ImportGraph.get?_build_of_dotted dotted optimize root
    rw [← String.append_assoc, ← String.append_assoc] at outside
    rw [outside]
    constructor
    · intro none
      exact absurd (Option.some.inj none) some_deps
    · intro unbound
      exact absurd bound unbound

/-- The key of a listed URI ends in the abstract segment for the base document alone. It is the
abstract key of the root for a base document that no prefix moves, and for another URI only through
a prefix that reads the same; so far the base document has the imports of that key. -/
theorem abstract_key_exact {ds : List Descriptor} {root : String} {optimize strict : Bool}
    {home : String} {p : Planner}
    (built : (build ds root optimize strict home).outcome = .ok p) {uri output : String}
    (listed : p.table.entries.get? uri = some output) :
    (p.resolver.lookupKey output (some uri) =
      if uri = baseDocument then output ++ ".Abs" else output) ∧
    (p.resolver.lookupKey output (some uri) = root ++ ".Abs" ↔
      uri = baseDocument ∧ ¬ Bound ds uri ∨
      uri ≠ baseDocument ∧ Free defaultOverrides uri ∧ ∃ q, Binds ds uri q ∧ pascal q = "Abs") ∧
    (uri = baseDocument → ∃ u, (p.planNamespace uri).outcome = .ok u ∧
      (p.resolver.graph.get? (root ++ ".Abs") = some u.imports ↔ ¬ Bound ds uri)) := by
  obtain ⟨_, single, rfl⟩ := (outcome_build_eq_ok_iff ds root optimize strict home p).1 built
  have assigned := (NamespaceTable.get?_ofSchemas_iff single root optimize strict
    defaultOverrides uri (some output)).1 listed
  rw [lookupKey_eq, ← abstract_text output, ← abstract_text root]
  refine ⟨rfl, ?_, ?_⟩
  · by_cases base : uri = baseDocument
    · subst base
      rw [if_pos rfl, base_key_iff assigned]
      simp
    · rw [if_neg base, other_key_iff single assigned]
      simp [base]
  · rintro rfl
    refine ⟨_, congrArg Reported.outcome (planNamespace_of_listed listed), ?_⟩
    rw [abstract_text]
    have imports := base_imports_iff optimize strict home assigned
    simpa only [unitOf, unitAt, listed, Option.getD_some] using imports

def ordinaryBase : List Descriptor :=
  [⟨baseDocument, OrderedMap.ofList [("", baseDocument), ("abs", baseDocument)], some true, none⟩]

theorem abstract_key_of_ordinary_base :
    ∃ p u, (build ordinaryBase "Ubl").outcome = .ok p ∧
      p.table.entries.get? baseDocument = some "Ubl" ∧
      p.resolver.lookupKey "Ubl" (some baseDocument) = "Ubl.Abs" ∧
      (p.planNamespace baseDocument).outcome = .ok u ∧
      p.resolver.graph.get? "Ubl.Abs" = some u.imports := by
  have built := (outcome_build_eq_ok_iff ordinaryBase "Ubl" false false defaultHome _).2
    ⟨by decide, by decide +kernel, rfl⟩
  have listed : (ofSchemas ordinaryBase "Ubl" false false defaultHome).table.entries.get?
      baseDocument = some "Ubl" := by decide +kernel
  have unbound : ¬ Bound ordinaryBase baseDocument := by decide +kernel
  obtain ⟨_, key, imports⟩ := abstract_key_exact built listed
  obtain ⟨u, planned, entry⟩ := imports rfl
  exact ⟨_, u, built, listed, key.2 (Or.inl ⟨rfl, unbound⟩), planned, entry.2 unbound⟩

def movedBase : List Descriptor :=
  [⟨baseDocument, OrderedMap.ofList [("base", baseDocument), ("Abs", "urn:other")],
    some true, none⟩]

/-- A prefix of its own takes the base document away from the abstract key of the root and from the
imports of that key, while another namespace may be looked up there. -/
theorem moved_base_misses_abstract :
    ∃ p u, (build movedBase "Ubl").outcome = .ok p ∧
      p.table.entries.get? baseDocument = some "Ubl.Base" ∧
      p.resolver.lookupKey "Ubl.Base" (some baseDocument) ≠ "Ubl.Abs" ∧
      (p.planNamespace baseDocument).outcome = .ok u ∧
      p.resolver.graph.get? "Ubl.Abs" ≠ some u.imports ∧
      p.table.entries.get? "urn:other" = some "Ubl.Abs" ∧
      p.resolver.lookupKey "Ubl.Abs" (some "urn:other") = "Ubl.Abs" := by
  have built := (outcome_build_eq_ok_iff movedBase "Ubl" false false defaultHome _).2
    ⟨by decide, by decide +kernel, rfl⟩
  have listed : (ofSchemas movedBase "Ubl" false false defaultHome).table.entries.get?
      baseDocument = some "Ubl.Base" := by decide +kernel
  exact ⟨_, _, built, listed, by decide +kernel,
    congrArg Reported.outcome (planNamespace_of_listed listed), by decide +kernel,
    by decide +kernel, by decide +kernel⟩

end Planner

end NamespacePlan
