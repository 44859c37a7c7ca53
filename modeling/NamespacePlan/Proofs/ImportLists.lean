import Mathlib.Data.List.Nodup
import NamespacePlan.Proofs.ManifestIntegrity
import NamespacePlan.Proofs.QueryForms

/-! What the units of a plan import. The graphs name single segments, no key among its own imports, and
the graph of the optimized mode names no basic component; below any root this stays so for every unit,
where the base document is looked up under the abstract key and where a URI is unknown. -/
namespace NamespacePlan

open Identifier

namespace ImportGraph

/-- Keys that a mode may import: segments below the root, once each, and none that is optimized away. -/
structure ImportKeys (optimize : Bool) (deps : List String) : Prop where
  once : deps.Nodup
  segments : ∀ d ∈ deps, d ≠ "" ∧ '.' ∉ d.toList
  basic : optimize = true → "Cbc" ∉ deps ∧ "Qdt" ∉ deps

theorem importKeys_nil (optimize : Bool) : ImportKeys optimize [] := ⟨by simp, by simp, by simp⟩

theorem select_imports (optimize : Bool) : ∀ e ∈ (select optimize).entries,
    e.2.Nodup ∧ (∀ d ∈ e.2, d ≠ "" ∧ '.' ∉ d.toList) ∧
      (optimize = true → "Cbc" ∉ e.2 ∧ "Qdt" ∉ e.2) ∧ e.1 ∉ e.2 := by
  cases optimize <;> decide

theorem importKeys_of_entry {optimize : Bool} {e : String × List String}
    (entry : e ∈ (select optimize).entries) : ImportKeys optimize e.2 := by
  obtain ⟨once, segments, basic, _⟩ := select_imports optimize e entry
  exact ⟨once, segments, basic⟩

/-- Whatever name is looked up below the root, its imports are such keys below the root. -/
theorem exists_importKeys (optimize : Bool) (root name : String) :
    ∃ deps, ImportKeys optimize deps ∧
      ((build optimize root).get? name).getD [] = deps.map (qualify root) := by
  cases found : (build optimize root).get? name with
  | none => exact ⟨[], importKeys_nil optimize, rfl⟩
  | some imports =>
    have entry : (name, imports) ∈ (qualified root (select optimize)).entries :=
      (OrderedMap.get?_eq_some_iff _ _ _).1 found
    rw [entries_qualified, List.mem_map] at entry
    obtain ⟨e, bare, same⟩ := entry
    exact ⟨e.2, importKeys_of_entry bare, (congrArg Prod.snd same).symm⟩

theorem importKeys_getD (optimize : Bool) (key : String) :
    ImportKeys optimize (((select optimize).get? key).getD []) ∧
      key ∉ ((select optimize).get? key).getD [] := by
  cases found : (select optimize).get? key with
  | none => exact ⟨importKeys_nil optimize, List.not_mem_nil⟩
  | some deps =>
    have entry := (OrderedMap.get?_eq_some_iff _ _ _).1 found
    exact ⟨importKeys_of_entry entry, (select_imports optimize _ entry).2.2.2⟩

/-- A key is not among its own imports, and neither when it is looked up as the base document. -/
theorem not_mem_bareImports (optimize : Bool) (key uri : String) :
    key ∉ bareImports optimize key uri := by
  by_cases base : uri = baseDocument
  · subst base
    by_cases atRoot : key = ""
    · -- the abstract key imports segments, and the root is none
      intro member
      exact ((importKeys_getD optimize _).1.segments key member).1 atRoot
    · rw [bareImports_base atRoot]
      exact List.not_mem_nil
  · rw [bareImports, bareKey, if_neg base]
    exact (importKeys_getD optimize key).2

end ImportGraph

/-- Each import of the unit is one segment below the root, stands there once and is another namespace
than the unit; the optimized mode imports neither basic components nor qualified data types. -/
structure SoundImports (root : String) (optimize : Bool) (u : PlannedUnit) : Prop where
  once : u.imports.Nodup
  others : u.namespaceName ∉ u.imports
  below : ∀ i ∈ u.imports, ∃ s, s ≠ "" ∧ '.' ∉ s.toList ∧ i = root ++ "." ++ s
  basic : optimize = true → root ++ ".Cbc" ∉ u.imports ∧ root ++ ".Qdt" ∉ u.imports

theorem soundImports_of_keys {root : String} {optimize : Bool} {u : PlannedUnit}
    {deps : List String} (keys : ImportGraph.ImportKeys optimize deps)
    (imports : u.imports = deps.map (qualify root)) (others : u.namespaceName ∉ u.imports) :
    SoundImports root optimize u := by
  have mem_iff : ∀ key, key ≠ "" → (root ++ "." ++ key ∈ u.imports ↔ key ∈ deps) := by
    intro key named
    rw [imports, ← qualify_of_ne_empty named]
    exact List.mem_map_of_injective fun _ _ same => qualify_injective same
  refine ⟨?_, others, ?_, ?_⟩
  · rw [imports]
    exact keys.once.map fun _ _ same => qualify_injective same
  · intro i member
    rw [imports, List.mem_map] at member
    obtain ⟨d, dep, rfl⟩ := member
    obtain ⟨named, dotless⟩ := keys.segments d dep
    exact ⟨d, named, dotless, qualify_of_ne_empty named root⟩
  · intro optimized
    obtain ⟨cbc, qdt⟩ := keys.basic optimized
    have first := mt (mem_iff "Cbc" (by decide)).1 cbc
    have second := mt (mem_iff "Qdt" (by decide)).1 qdt
    rw [String.append_assoc] at first second
    exact ⟨first, second⟩

namespace Planner

section Units

variable {ds : List Descriptor} {root : String} {optimize strict : Bool} {home : String}

theorem exists_importKeys_unitAt (uri output : String) :
    ∃ deps, ImportGraph.ImportKeys optimize deps ∧
      ((ofSchemas ds root optimize strict home).unitAt uri output).imports =
        deps.map (qualify root) :=
  ImportGraph.exists_importKeys optimize root _

/-- A planned unit never imports itself: a listed one by its key, and the placeholder because it has no
dot. -/
theorem not_mem_imports_unitOf (single : SinglePrefix ds) (uri : String) :
    let u := (ofSchemas ds root optimize strict home).unitOf uri
    u.namespaceName ∉ u.imports := by
  intro u
  cases found : (ofSchemas ds root optimize strict home).table.entries.get? uri with
  | some output =>
    have planned : u = (ofSchemas ds root optimize strict home).unitAt uri output := by
      simp only [u, unitOf, found, Option.getD_some]
    obtain ⟨key, _, rfl, _⟩ := exists_key ((NamespaceTable.get?_ofSchemas_iff single root optimize
      strict defaultOverrides uri (some output)).1 found)
    have imports : u.imports = (ImportGraph.bareImports optimize key uri).map (qualify root) := by
      rw [planned]
      exact importsFor_qualify ds root optimize strict home key uri
    rw [imports, planned]
    intro member
    obtain ⟨dep, here, same⟩ := List.mem_map.1 member
    rw [qualify_injective same] at here
    exact ImportGraph.not_mem_bareImports optimize key uri here
  | none =>
    have planned : u = (ofSchemas ds root optimize strict home).unitAt uri unresolved := by
      simp only [u, unitOf, found, Option.getD_none]
    rw [planned]
    obtain ⟨deps, keys, imports⟩ := exists_importKeys_unitAt uri unresolved
    rw [imports]
    intro member
    obtain ⟨dep, here, same⟩ := List.mem_map.1 member
    have named := (keys.segments dep here).1
    exact named ((qualify_eq_unresolved_iff root dep).1 same).1

theorem soundImports_unitOf (single : SinglePrefix ds) (uri : String) :
    SoundImports root optimize ((ofSchemas ds root optimize strict home).unitOf uri) := by
  obtain ⟨deps, keys, imports⟩ := exists_importKeys_unitAt uri _
  exact soundImports_of_keys keys imports (not_mem_imports_unitOf single uri)

/-- Every URI gets a unit with sound imports, but for an unknown one in the strict mode, which is
refused; so every run that succeeds has sound imports throughout. -/
theorem imports_sound {p : Planner} (built : (build ds root optimize strict home).outcome = .ok p) :
    (∀ uri,
      (∃ u, (p.planNamespace uri).outcome = .ok u ∧ SoundImports root optimize u) ∨
      (strict = true ∧ p.table.entries.get? uri = none ∧
        (p.planNamespace uri).outcome = .error (.unknownNamespace uri))) ∧
    ∀ es us, (p.planEach es).outcome = .ok us → ∀ u ∈ us, SoundImports root optimize u := by
  obtain ⟨_, single, rfl⟩ := (outcome_build_eq_ok_iff ds root optimize strict home p).1 built
  have sound : ∀ uri, SoundImports root optimize
      ((ofSchemas ds root optimize strict home).unitOf uri) :=
    fun _ => soundImports_unitOf single _
  constructor
  · intro uri
    cases found : (ofSchemas ds root optimize strict home).table.entries.get? uri with
    | some output => exact Or.inl ⟨_, congrArg Reported.outcome (planNamespace_of_listed found), sound uri⟩
    | none =>
      cases strict with
      | false =>
        exact Or.inl ⟨_, congrArg Reported.outcome (planNamespace_of_missing found rfl), sound uri⟩
      | true =>
        exact Or.inr ⟨rfl, rfl, congrArg Reported.outcome (planNamespace_of_missing_strict found rfl)⟩
  · intro es us planned u member
    rw [units_of_planEach planned] at member
    obtain ⟨d, _, rfl⟩ := List.mem_map.1 member
    exact sound d.target

end Units

/-- A root that gives the placeholder of the base document the imports of the root. -/
theorem abstract_placeholder_imports_sound :
    ∃ p u, (build lonelyMaindoc "UnresolvedNamespace.Abs" true).outcome = .ok p ∧
      p.table.entries.get? baseDocument = none ∧
      (p.planNamespace baseDocument).outcome = .ok u ∧ u.namespaceName = unresolved ∧
      u.imports = ["UnresolvedNamespace.Abs.Cac", "UnresolvedNamespace.Abs.Udt"] ∧
      SoundImports "UnresolvedNamespace.Abs" true u := by
  have built := (outcome_build_eq_ok_iff lonelyMaindoc "UnresolvedNamespace.Abs" true false
    defaultHome _).2 ⟨by decide, by decide, rfl⟩
  have missing : (ofSchemas lonelyMaindoc "UnresolvedNamespace.Abs" true false
      defaultHome).table.entries.get? baseDocument = none := by decide
  have planned := outcome_planNamespace_of_missing missing rfl
  rcases (imports_sound built).1 baseDocument with ⟨u, same, sound⟩ | ⟨strict, _⟩
  · cases Except.ok.inj (planned.symm.trans same)
    exact ⟨_, _, built, missing, planned, rfl, by decide, sound⟩
  · cases strict

end Planner

end NamespacePlan
