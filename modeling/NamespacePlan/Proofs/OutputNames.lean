import NamespacePlan.Proofs.DottedNames
import NamespacePlan.Proofs.Planning
import NamespacePlan.Proofs.SegmentNames

/-! What the output namespaces of a table look like. Each is the root or one segment below it, and
the root decides nothing about the segment; it is a dotted name unless a prefix keeps characters that
no identifier holds. -/
namespace NamespacePlan

open Identifier

theorem default_keys_spelled : ∀ o ∈ defaultOverrides,
    o.key ≠ "" ∧ '.' ∉ o.key.toList ∧ isDotted o.key = true := by decide

/-- The output of a listed URI is a key without dots below the root, under whatever root. -/
theorem exists_key {ds : List Descriptor} {root uri output : String}
    (assigned : Assigned ds root defaultOverrides uri (some output)) :
    ∃ key, '.' ∉ key.toList ∧ output = qualify root key ∧
      ∀ other, Assigned ds other defaultOverrides uri (some (qualify other key)) := by
  cases assigned with
  | @ruled before after o rules names last =>
    have member : o ∈ defaultOverrides := rules ▸ List.mem_append_right _ List.mem_cons_self
    exact ⟨o.key, (default_keys_spelled o member).2.1, rfl, fun _ => .ruled rules names last⟩
  | @bound q free binds =>
    have below := qualify_of_ne_empty (pascal_ne_empty q)
    refine ⟨pascal q, pascal_dotless q, (below root).symm, fun other => ?_⟩
    rw [below]
    exact .bound free binds
  | maindoc free unbound main =>
    exact ⟨"", by simp, (if_pos rfl).symm, fun _ => .maindoc free unbound main⟩

theorem isDotted_output_iff {ds : List Descriptor} (single : SinglePrefix ds)
    {root uri output : String} (dotted : isDotted root = true)
    (assigned : Assigned ds root defaultOverrides uri (some output)) :
    isDotted output = true ↔
      (Free defaultOverrides uri → ∀ q, Binds ds uri q → SpellsIdentifier q.toList) := by
  cases assigned with
  | @ruled before after o rules names last =>
    have member : o ∈ defaultOverrides := rules ▸ List.mem_append_right _ List.mem_cons_self
    obtain ⟨named, _, spelled⟩ := default_keys_spelled o member
    rw [qualify_of_ne_empty named, isDotted_below]
    exact ⟨fun _ free => absurd names (free o member), fun _ => ⟨dotted, spelled⟩⟩
  | @bound q free binds =>
    rw [isDotted_below, isDotted_of_dotless (pascal_dotless q), isIdentifier_pascal_iff]
    constructor
    · rintro ⟨_, spells⟩ _ r other
      exact single uri q r binds other ▸ spells
    · exact fun all => ⟨dotted, all free q binds⟩
  | maindoc free unbound main =>
    exact ⟨fun _ _ q binds => absurd ⟨q, binds⟩ unbound, fun _ => dotted⟩

namespace Planner

/-- Under a dotted root, an output is a dotted name unless its URI goes to a prefix that keeps what
no identifier holds; so all are, exactly when no such prefix decides an output. -/
theorem outputs_dotted_iff {ds : List Descriptor} {root : String} {optimize strict : Bool}
    {home : String} {p : Planner} (dotted : isDotted root = true)
    (built : (build ds root optimize strict home).outcome = .ok p) :
    (∀ uri output, p.table.entries.get? uri = some output →
      (isDotted output = true ↔
        (Free defaultOverrides uri → ∀ q, Binds ds uri q → SpellsIdentifier q.toList))) ∧
    ((∀ output ∈ p.table.entries.values, isDotted output = true) ↔
      ∀ uri q, Free defaultOverrides uri → Binds ds uri q → SpellsIdentifier q.toList) := by
  obtain ⟨_, single, rfl⟩ := (outcome_build_eq_ok_iff ds root optimize strict home p).1 built
  have exact_table := NamespaceTable.get?_ofSchemas_iff single root optimize strict defaultOverrides
  have each : ∀ uri output,
      (ofSchemas ds root optimize strict home).table.entries.get? uri = some output →
      (isDotted output = true ↔
        (Free defaultOverrides uri → ∀ q, Binds ds uri q → SpellsIdentifier q.toList)) :=
    fun uri output listed => isDotted_output_iff single dotted ((exact_table uri _).1 listed)
  refine ⟨each, ?_⟩
  constructor
  · intro all uri q free binds
    have listed := (exact_table uri _).2 (.bound free binds)
    have entry := (OrderedMap.get?_eq_some_iff _ _ _).1 listed
    exact (each uri _ listed).1 (all _ (List.mem_map_of_mem (f := Prod.snd) entry)) free q binds
  · intro spelled output member
    obtain ⟨⟨uri, _⟩, entry, rfl⟩ := List.mem_map.1 member
    have listed := (OrderedMap.get?_eq_some_iff _ _ _).2 entry
    exact (each uri _ listed).2 fun free q binds => spelled uri q free binds

/-- Prefixes that cleaning, raising or an `Item` in front makes identifiers. -/
def spelledPrefixes : List Descriptor :=
  [⟨"urn:doc", OrderedMap.ofList [("\u00df1", "urn:a"), ("ccts-cct", "urn:b"), ("1.x", "urn:c")],
    some true, none⟩]

theorem spelled_outputs_dotted :
    ∃ p, (build spelledPrefixes "Acme.Ubl").outcome = .ok p ∧
      p.table.entries.get? "urn:a" = some "Acme.Ubl.SS1" ∧
      p.table.entries.get? "urn:c" = some "Acme.Ubl.Item1x" ∧
      ∀ output ∈ p.table.entries.values, isDotted output = true := by
  have built := (outcome_build_eq_ok_iff spelledPrefixes "Acme.Ubl" false false defaultHome _).2
    ⟨by decide, by decide, rfl⟩
  have spelled : ∀ b ∈ Prefixes.declared spelledPrefixes, SpellsIdentifier b.1.toList := by
    decide +kernel
  have all := (outputs_dotted_iff (by decide) built).2.2 fun uri q _ binds =>
    spelled (q, uri) ((Prefixes.mem_declared_iff _ _).2 binds)
  exact ⟨_, built, by decide +kernel, by decide +kernel, all⟩

/-- A superscript digit stays in a name and stands in no identifier. -/
def superscriptPrefix : List Descriptor :=
  [⟨"urn:doc", OrderedMap.ofList [("a\u2070b", "urn:a")], some true, none⟩]

theorem superscript_output_undotted :
    isDotted "Ubl" = true ∧
    ∃ p, (build superscriptPrefix "Ubl").outcome = .ok p ∧
      p.table.entries.get? "urn:a" = some "Ubl.A\u2070b" ∧ isDotted "Ubl.A\u2070b" = false := by
  have built := (outcome_build_eq_ok_iff superscriptPrefix "Ubl" false false defaultHome _).2
    ⟨by decide, by decide, rfl⟩
  exact ⟨by decide, _, built, by decide +kernel, by decide +kernel⟩

end Planner

end NamespacePlan
