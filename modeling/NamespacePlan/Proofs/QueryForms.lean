import NamespacePlan.Proofs.Placeholder
import NamespacePlan.Proofs.RootChange

/-! The two ways of asking for the imports of an output. With the URI at hand the base document is told
by it, and else by its output; so the answers part for the URIs that share that output. -/
namespace NamespacePlan

open Identifier

namespace ImportResolver

theorem resolve_eq (r : ImportResolver) (output : String) (uri : Option String) :
    r.resolve output uri =
      ⟨[.importsResolved (r.importsFor output uri).length output],
        .ok (r.importsFor output uri, r.documentationFor output)⟩ := rfl

/-- All that a query takes from the URI is whether it speaks of the base document. -/
theorem importsFor_congr {r : ImportResolver} {output : String} {x y : Option String}
    (same : r.isBase output x = r.isBase output y) : r.importsFor output x = r.importsFor output y := by
  rw [importsFor, importsFor, lookupKey, lookupKey, same]

end ImportResolver

namespace ImportGraph

theorem select_root_ne_abstract (optimize : Bool) :
    ((select optimize).get? "Abs").getD [] ≠ ((select optimize).get? "").getD [] := by
  cases optimize <;> decide

theorem select_getD_eq_nil_iff (optimize : Bool) (key : String) :
    ((select optimize).get? key).getD [] = [] ↔ key ∉ (select optimize).keys := by
  rw [← OrderedMap.get?_eq_none_iff]
  cases found : (select optimize).get? key with
  | none => simp
  | some deps =>
    have entry := (OrderedMap.get?_eq_some_iff _ _ _).1 found
    simpa using select_some optimize _ entry

theorem bareImports_base {key : String} (named : key ≠ "") (optimize : Bool) :
    bareImports optimize key baseDocument = [] := by
  have dotted : '.' ∈ (key ++ "." ++ "Abs").toList := by simp
  rw [bareImports, bareKey, if_pos rfl, if_neg named, select_getD_eq_nil_iff]
  exact fun member => select_keys_dotless optimize _ member dotted

/-- Under a key of the graph, and under no other, the base document imports something else than another
URI does. -/
theorem bareImports_base_ne_iff {uri : String} (other : uri ≠ baseDocument) (optimize : Bool)
    (key : String) :
    bareImports optimize key baseDocument ≠ bareImports optimize key uri ↔
      key ∈ (select optimize).keys := by
  have plain : bareImports optimize key uri = ((select optimize).get? key).getD [] := by
    rw [bareImports, bareKey, if_neg other]
  rw [plain]
  by_cases atRoot : key = ""
  · subst atRoot
    have abstract : bareImports optimize "" baseDocument =
        ((select optimize).get? "Abs").getD [] := by
      rw [bareImports, bareKey, if_pos rfl, if_pos rfl]
    rw [abstract]
    exact ⟨fun _ => (mem_select_keys optimize).1, fun _ => select_root_ne_abstract optimize⟩
  · rw [bareImports_base atRoot, ne_comm, ne_eq, select_getD_eq_nil_iff, Decidable.not_not]

theorem mem_build_keys_iff (optimize : Bool) (root key : String) :
    qualify root key ∈ (build optimize root).keys ↔ key ∈ (select optimize).keys := by
  have keys : (build optimize root).keys = (select optimize).keys.map (qualify root) :=
    keys_qualified root (select optimize)
  rw [keys]
  exact List.mem_map_of_injective fun _ _ same => qualify_injective same

end ImportGraph

namespace Planner

/-- Another URI, with the output of the base document. -/
structure BesideBase (p : Planner) (uri : String) : Prop where
  other : uri ≠ baseDocument
  shared : p.table.entries.get? baseDocument = p.table.entries.get? uri

section Queries

variable {ds : List Descriptor} {root : String} {optimize strict : Bool} {home : String}
  {uri output : String}

theorem isBase_eq_iff {p : Planner} (base : p.resolver.base = p.table.entries.get? baseDocument)
    (listed : p.table.entries.get? uri = some output) :
    p.resolver.isBase output none = p.resolver.isBase output (some uri) ↔ ¬ BesideBase p uri := by
  rw [Bool.eq_iff_iff]
  simp only [ImportResolver.isBase, base, beq_iff_eq]
  constructor
  · intro same beside
    exact beside.other (same.1 (beside.shared.trans listed))
  · intro apart
    constructor
    · intro shared
      apply Decidable.byContradiction
      intro other
      exact apart ⟨other, shared.trans listed.symm⟩
    · rintro rfl
      exact listed

theorem importsFor_base_ne_iff (other : uri ≠ baseDocument)
    (assigned : Assigned ds root defaultOverrides uri (some output)) :
    let r := (ofSchemas ds root optimize strict home).resolver
    r.importsFor output (some baseDocument) ≠ r.importsFor output (some uri) ↔
      output ∈ r.graph.keys := by
  intro r
  obtain ⟨key, _, rfl, _⟩ := exists_key assigned
  have injective : Function.Injective (List.map (qualify root)) :=
    List.map_injective_iff.2 fun _ _ same => qualify_injective same
  rw [importsFor_qualify, importsFor_qualify, injective.ne_iff,
    ImportGraph.bareImports_base_ne_iff other]
  exact (ImportGraph.mem_build_keys_iff optimize root key).symm

/-- Asking by the output alone gives what asking with the URI gives, unless the URI shares the output of
the base document. Then the imports are those of the base document, and they are other ones exactly
when the output is a key of the graph. -/
theorem query_forms_exact {p : Planner}
    (built : (build ds root optimize strict home).outcome = .ok p)
    (listed : p.table.entries.get? uri = some output) :
    (¬ BesideBase p uri → p.resolver.resolve output none = p.resolver.resolve output (some uri)) ∧
    (BesideBase p uri → ∃ b imports documentation,
      (p.planNamespace baseDocument).outcome = .ok b ∧
      (p.resolver.resolve output (some uri)).outcome = .ok (imports, documentation) ∧
      (p.resolver.resolve output none).outcome = .ok (b.imports, documentation) ∧
      (b.imports ≠ imports ↔ output ∈ p.resolver.graph.keys)) := by
  obtain ⟨_, single, rfl⟩ := (outcome_build_eq_ok_iff ds root optimize strict home p).1 built
  constructor
  · intro apart
    rw [ImportResolver.resolve_eq, ImportResolver.resolve_eq,
      ImportResolver.importsFor_congr ((isBase_eq_iff rfl listed).2 apart)]
  · intro beside
    have base := beside.shared.trans listed
    have assigned := (NamespaceTable.get?_ofSchemas_iff single root optimize strict
      defaultOverrides uri (some output)).1 listed
    -- without the URI the output speaks for the base document, which stands there as well
    have asked := (isBase_eq_iff (p := ofSchemas ds root optimize strict home) rfl base).2
      fun self => self.other rfl
    refine ⟨_, _, _, outcome_planNamespace_of_listed base, rfl, ?_,
      importsFor_base_ne_iff beside.other assigned⟩
    rw [ImportResolver.resolve_eq, ImportResolver.importsFor_congr asked]
    rfl

end Queries

/-- The base document beside a main document at the root, and a library below. -/
def sharedRoot : List Descriptor :=
  [⟨baseDocument, OrderedMap.ofList [("cac", "urn:cac")], some true, none⟩,
   ⟨"urn:inv", OrderedMap.empty, some true, none⟩]

theorem shared_root_query_forms :
    ∃ p, (build sharedRoot "Ubl").outcome = .ok p ∧
      p.table.entries.get? "urn:cac" = some "Ubl.Cac" ∧
      p.resolver.resolve "Ubl.Cac" none = p.resolver.resolve "Ubl.Cac" (some "urn:cac") ∧
      p.table.entries.get? "urn:inv" = some "Ubl" ∧
      ∃ b imports documentation, (p.planNamespace baseDocument).outcome = .ok b ∧
        (p.resolver.resolve "Ubl" (some "urn:inv")).outcome = .ok (imports, documentation) ∧
        (p.resolver.resolve "Ubl" none).outcome = .ok (b.imports, documentation) ∧
        b.imports ≠ imports := by
  have built := (outcome_build_eq_ok_iff sharedRoot "Ubl" false false defaultHome _).2
    ⟨by decide, by decide +kernel, rfl⟩
  have below : (ofSchemas sharedRoot "Ubl" false false defaultHome).table.entries.get? "urn:cac" =
      some "Ubl.Cac" := by decide +kernel
  have atRoot : (ofSchemas sharedRoot "Ubl" false false defaultHome).table.entries.get? "urn:inv" =
      some "Ubl" := by decide +kernel
  have base : (ofSchemas sharedRoot "Ubl" false false defaultHome).table.entries.get?
      baseDocument = some "Ubl" := by decide +kernel
  have apart : ¬ BesideBase (ofSchemas sharedRoot "Ubl" false false defaultHome) "urn:cac" := by
    rintro ⟨_, shared⟩
    rw [base, below] at shared
    exact absurd (Option.some.inj shared) (by decide)
  obtain ⟨b, imports, documentation, planned, known, direct, differ⟩ :=
    (query_forms_exact built atRoot).2 ⟨by decide, base.trans atRoot.symm⟩
  exact ⟨_, built, below, (query_forms_exact built below).1 apart, atRoot, b, imports, documentation,
    planned, known, direct, differ.2 (by decide +kernel)⟩

end Planner

end NamespacePlan
