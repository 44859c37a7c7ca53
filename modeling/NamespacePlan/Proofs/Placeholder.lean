import NamespacePlan.Proofs.BaseDocument
import NamespacePlan.Proofs.Documentation

/-! The unit of an unknown namespace. Its name is a text like any other: it carries no documentation
because it has no dot, but it imports nothing only while no key of the graph reads like it, and it
stands for unknown namespaces alone only while no root is named like it. -/
namespace NamespacePlan

open Identifier

theorem unresolved_dotless : '.' ∉ unresolved.toList := by decide

theorem below_ne_unresolved (base s : String) : base ++ "." ++ s ≠ unresolved := by
  intro same
  apply unresolved_dotless
  rw [← same, toList_below]
  exact List.mem_append_right _ List.mem_cons_self

theorem qualify_eq_unresolved_iff (root key : String) :
    qualify root key = unresolved ↔ key = "" ∧ root = unresolved := by
  by_cases empty : key = ""
  · have same : qualify root key = root := if_pos empty
    rw [same]
    exact (and_iff_right empty).symm
  · rw [qualify_of_ne_empty empty]
    constructor
    · exact fun same => absurd same (below_ne_unresolved root key)
    · exact fun both => absurd both.1 empty

theorem documentation_unresolved (optimize : Bool) :
    Banner.documentation unresolved optimize = "" := by
  apply (Banner.documentation_eq_empty_iff unresolved optimize).2
  rintro key _ ⟨base, same⟩
  exact below_ne_unresolved base key same.symm

namespace ImportGraph

theorem select_some (optimize : Bool) : ∀ e ∈ (select optimize).entries, e.2 ≠ [] := by
  cases optimize <;> decide

theorem mem_select_keys (optimize : Bool) :
    "" ∈ (select optimize).keys ∧ "Abs" ∈ (select optimize).keys := by
  cases optimize <;> decide

/-- A name imports nothing exactly when it is no key below the root. -/
theorem getD_build_eq_nil_iff (optimize : Bool) (root name : String) :
    ((build optimize root).get? name).getD [] = [] ↔
      ∀ key ∈ (select optimize).keys, name ≠ qualify root key := by
  constructor
  · rintro nothing key member rfl
    obtain ⟨deps, found⟩ := (OrderedMap.mem_keys_iff _ _).1 member
    have imports := get?_qualified root (select optimize) key
    rw [found, Option.map_some] at imports
    change ((qualified root (select optimize)).get? _).getD [] = [] at nothing
    rw [imports, Option.getD_some, List.map_eq_nil_iff] at nothing
    exact select_some optimize _ ((OrderedMap.get?_eq_some_iff _ _ _).1 found) nothing
  · intro other
    change ((qualified root (select optimize)).get? name).getD [] = []
    rw [get?_qualified_eq_none other]
    rfl

theorem unresolved_imports_eq_nil_iff (optimize : Bool) (root : String) :
    ((build optimize root).get? unresolved).getD [] = [] ↔ root ≠ unresolved := by
  rw [getD_build_eq_nil_iff]
  constructor
  · intro other same
    exact other "" (mem_select_keys optimize).1
      ((qualify_eq_unresolved_iff root "").2 ⟨rfl, same⟩).symm
  · intro other key _ same
    exact other ((qualify_eq_unresolved_iff root key).1 same.symm).2

theorem abstract_unresolved_imports_eq_nil_iff (optimize : Bool) (root : String) :
    ((build optimize root).get? (unresolved ++ "." ++ "Abs")).getD [] = [] ↔
      root ≠ unresolved ∧ root ≠ unresolved ++ "." ++ "Abs" := by
  rw [getD_build_eq_nil_iff]
  constructor
  · intro other
    constructor
    · rintro rfl
      exact other "Abs" (mem_select_keys optimize).2 (abstract_eq unresolved).symm
    · rintro rfl
      exact other "" (mem_select_keys optimize).1 (if_pos rfl).symm
  · rintro ⟨name, moved⟩ key member same
    by_cases empty : key = ""
    · exact moved (same.trans (if_pos empty)).symm
    · rw [qualify_of_ne_empty empty] at same
      exact name (below_inj (by decide) (select_keys_dotless optimize key member) same).1.symm

end ImportGraph

/-- The placeholder of the URI is looked up at a key of the graph below the root. -/
inductive MeetsPlaceholder (root uri : String) : Prop where
  | named (same : root = unresolved)
  | abstract (base : uri = baseDocument) (same : root = unresolved ++ ".Abs")

theorem meetsPlaceholder_iff (root uri : String) :
    MeetsPlaceholder root uri ↔
      root = unresolved ∨ uri = baseDocument ∧ root = unresolved ++ ".Abs" := by
  constructor
  · rintro (same | ⟨base, same⟩)
    · exact Or.inl same
    · exact Or.inr ⟨base, same⟩
  · rintro (same | ⟨base, same⟩)
    · exact .named same
    · exact .abstract base same

instance (root uri : String) : Decidable (MeetsPlaceholder root uri) :=
  decidable_of_iff' _ (meetsPlaceholder_iff root uri)

namespace Planner

theorem placeholder_imports_iff (ds : List Descriptor) (root : String) (optimize strict : Bool)
    (home uri : String) :
    (ofSchemas ds root optimize strict home).resolver.importsFor unresolved (some uri) = [] ↔
      ¬ MeetsPlaceholder root uri := by
  rw [ImportResolver.importsFor, lookupKey_eq, meetsPlaceholder_iff, ← abstract_text, not_or]
  by_cases base : uri = baseDocument
  · rw [if_pos base]
    refine (ImportGraph.abstract_unresolved_imports_eq_nil_iff optimize root).trans ?_
    simp only [base, true_and, ne_eq]
  · rw [if_neg base]
    refine (ImportGraph.unresolved_imports_eq_nil_iff optimize root).trans ?_
    simp only [base, false_and, not_false_eq_true, and_true, ne_eq]

theorem unresolved_output_iff {ds : List Descriptor} {root uri output : String}
    (assigned : Assigned ds root defaultOverrides uri (some output)) :
    output = unresolved ↔
      root = unresolved ∧ Free defaultOverrides uri ∧ ¬ Bound ds uri := by
  cases assigned with
  | @ruled before after o rules names last =>
    have member : o ∈ defaultOverrides := rules ▸ List.mem_append_right _ List.mem_cons_self
    rw [qualify_eq_unresolved_iff]
    exact ⟨fun both => absurd both.1 (default_keys_spelled o member).1,
      fun all => absurd names (all.2.1 o member)⟩
  | bound free binds =>
    exact ⟨fun same => absurd same (below_ne_unresolved _ _), fun all => absurd ⟨_, binds⟩ all.2.2⟩
  | maindoc free unbound main =>
    exact ⟨fun same => ⟨same, free, unbound⟩, fun all => all.1⟩

theorem outcome_resolve_of_listed {t : NamespaceTable} {uri output : String}
    (listed : t.entries.get? uri = some output) : (t.resolve uri).outcome = .ok output := by
  simp only [NamespaceTable.resolve, listed, Reported.outcome_pure]

/-- A lenient planner gives every unknown URI the placeholder, an empty documentation and the bare
banner. It imports nothing unless the root puts a key of the graph at the placeholder, and a known
URI goes to the placeholder only as a main document of a root named like it. -/
theorem placeholder_exact {ds : List Descriptor} {root : String} {optimize : Bool}
    {home : String} {p : Planner}
    (built : (build ds root optimize false home).outcome = .ok p) :
    (∀ uri, p.table.entries.get? uri = none → ∃ imports,
      (p.planNamespace uri).outcome = .ok
        { namespaceName := unresolved
          header := Banner.render "" home
          imports := imports
          documentation := ""
          xmlNamespace := some uri } ∧
      (imports = [] ↔ ¬ MeetsPlaceholder root uri)) ∧
    (∀ uri ∈ p.table.entries.keys,
      (p.table.resolve uri).outcome = .ok unresolved ↔
        root = unresolved ∧ Free defaultOverrides uri ∧ ¬ Bound ds uri) := by
  obtain ⟨_, single, rfl⟩ := (outcome_build_eq_ok_iff ds root optimize false home p).1 built
  constructor
  · intro uri missing
    refine ⟨_, ?_, placeholder_imports_iff ds root optimize false home uri⟩
    have silent :
        (ofSchemas ds root optimize false home).resolver.documentationFor unresolved = "" :=
      documentation_unresolved optimize
    rw [outcome_planNamespace_of_missing missing rfl, unitAt, silent]
    rfl
  · intro uri member
    obtain ⟨output, listed⟩ := (OrderedMap.mem_keys_iff _ _).1 member
    have assigned := (NamespaceTable.get?_ofSchemas_iff single root optimize false
      defaultOverrides uri (some output)).1 listed
    rw [outcome_resolve_of_listed listed, Except.ok.injEq, unresolved_output_iff assigned]

def lonelyMaindoc : List Descriptor := [⟨"urn:doc", OrderedMap.empty, some true, none⟩]

theorem ordinary_placeholder_imports_nothing :
    ∃ p, (build lonelyMaindoc "Ubl").outcome = .ok p ∧
      p.table.entries.get? baseDocument = none ∧
      (p.planNamespace baseDocument).outcome = .ok
        ⟨unresolved, Banner.render "" defaultHome, [], "", some baseDocument⟩ ∧
      (p.table.resolve "urn:doc").outcome ≠ .ok unresolved := by
  have built := (outcome_build_eq_ok_iff lonelyMaindoc "Ubl" false false defaultHome _).2
    ⟨by decide, by decide, rfl⟩
  have missing : (ofSchemas lonelyMaindoc "Ubl" false false defaultHome).table.entries.get?
      baseDocument = none := by decide
  obtain ⟨unknown, known⟩ := placeholder_exact built
  obtain ⟨imports, planned, nothing⟩ := unknown baseDocument missing
  have none_imported : imports = [] := nothing.2 (by decide)
  refine ⟨_, built, missing, none_imported ▸ planned, ?_⟩
  rw [ne_eq, known "urn:doc" (by decide)]
  exact fun all => absurd all.1 (by decide)

/-- A root named like the placeholder gives unknown namespaces the imports of the root, and sends
its main documents to the placeholder. -/
theorem placeholder_root_imports :
    ∃ p u, (build lonelyMaindoc "UnresolvedNamespace").outcome = .ok p ∧
      p.table.entries.get? "urn:x" = none ∧ (p.planNamespace "urn:x").outcome = .ok u ∧
      u.imports = ["UnresolvedNamespace.Cbc", "UnresolvedNamespace.Cac", "UnresolvedNamespace.Ext"] ∧
      "urn:doc" ∈ p.table.entries.keys ∧
      (p.table.resolve "urn:doc").outcome = .ok unresolved := by
  have built := (outcome_build_eq_ok_iff lonelyMaindoc "UnresolvedNamespace" false false
    defaultHome _).2 ⟨by decide, by decide, rfl⟩
  have missing : (ofSchemas lonelyMaindoc "UnresolvedNamespace" false false
      defaultHome).table.entries.get? "urn:x" = none := by decide
  have listed : (ofSchemas lonelyMaindoc "UnresolvedNamespace" false false
      defaultHome).table.entries.get? "urn:doc" = some unresolved := by decide
  exact ⟨_, _, built, missing, outcome_planNamespace_of_missing missing rfl, by decide,
    (OrderedMap.mem_keys_iff _ _).2 ⟨_, listed⟩, outcome_resolve_of_listed listed⟩

end Planner

end NamespacePlan
