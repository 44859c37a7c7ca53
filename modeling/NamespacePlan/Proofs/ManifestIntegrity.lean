import NamespacePlan.Proofs.ManifestViews
import NamespacePlan.Proofs.Planning

/-! The parts of a manifest agree. Its sorted table answers for each unit as the table of the planner
does, and nothing stands among the outputs but what a unit was sent to. -/
namespace NamespacePlan

open Distinct

namespace OrderedMap

variable {κ ν : Type} [DecidableEq κ]

/-- Entries in another order answer alike. -/
theorem find_of_perm (m : OrderedMap κ ν) {es : List (κ × ν)} (perm : es.Perm m.entries) (k : κ) :
    find k es = m.get? k := by
  have nodup : (es.map Prod.fst).Nodup := (perm.map Prod.fst).nodup_iff.2 m.nodup_keys
  apply Option.ext
  intro v
  rw [find_eq_some_iff nodup, get?_eq_some_iff, perm.mem_iff]

end OrderedMap

namespace Manifest

theorem sortedEntries_perm (t : OrderedMap String String) : (sortedEntries t).Perm t.entries :=
  List.mergeSort_perm _ _

theorem sortedEntries_strict (t : OrderedMap String String) :
    (sortedEntries t).Pairwise fun a b => a.1 < b.1 := by
  have sorted := List.pairwise_mergeSort Descriptor.bindingLe_trans Descriptor.bindingLe_total
    t.entries
  have nodup : (sortedEntries t).Pairwise fun a b => a.1 ≠ b.1 :=
    List.Pairwise.of_map Prod.fst (fun _ _ other => other)
      (((sortedEntries_perm t).map Prod.fst).nodup_iff.2 t.nodup_keys)
  refine List.Pairwise.imp₂ ?_ sorted nodup
  intro a b le other
  rcases (Descriptor.bindingLe_iff a b).1 le with less | ⟨same, _⟩
  · exact less
  · exact absurd same other

theorem find_sortedEntries (t : OrderedMap String String) (uri : String) :
    OrderedMap.find uri (sortedEntries t) = t.get? uri :=
  t.find_of_perm (sortedEntries_perm t) uri

theorem mem_sortedNames_iff (xs : List String) (s : String) :
    s ∈ xs.eraseDups.mergeSort ↔ s ∈ xs := by
  rw [List.mem_mergeSort, List.mem_eraseDups]

/-- What a manifest owes to the table and to the targets that it was made from. -/
structure Integral (m : Manifest) (table : OrderedMap String String) (targets : List String)
    (us : List PlannedUnit) : Prop where
  namespaces : m.namespaces.Perm table.entries
  namespaces_sorted : m.namespaces.Pairwise fun a b => a.1 < b.1
  outputs_sorted : m.outputs.Pairwise (· < ·)
  outputs : ∀ s, s ∈ m.outputs ↔ ∃ u ∈ us, u.namespaceName = s
  units : m.units = us
  targets : us.map PlannedUnit.xmlNamespace = targets.map some
  agree : ∀ u ∈ m.units, ∃ uri, u.xmlNamespace = some uri ∧
    u.namespaceName = (OrderedMap.find uri m.namespaces).getD unresolved
  known : ∀ s ∈ m.outputs, s = unresolved ∨ s ∈ m.namespaces.map Prod.snd

end Manifest

namespace Planner

/-- A run that succeeds gives every schema the unit that a lenient planner would. -/
theorem units_of_planEach {p : Planner} {ds : List Descriptor} {us : List PlannedUnit}
    (planned : (p.planEach ds).outcome = .ok us) : us = ds.map fun d => p.unitOf d.target := by
  cases strict : p.table.strict with
  | false =>
    rw [(planEach_lenient strict ds).1] at planned
    exact (Except.ok.inj planned).symm
  | true =>
    rw [(planEach_strict strict ds).2] at planned
    cases first : (p.missing ds).head? with
    | none =>
      rw [first] at planned
      exact (Except.ok.inj planned).symm
    | some d =>
      rw [first] at planned
      cases planned

theorem namespaceName_unitOf (p : Planner) (uri : String) :
    (p.unitOf uri).namespaceName = (p.table.entries.get? uri).getD unresolved := rfl

/-- The manifest of any run that succeeds is sorted, complete and in agreement with the table. -/
theorem manifest_integral {p : Planner} {ds : List Descriptor} {us : List PlannedUnit}
    (planned : (p.planEach ds).outcome = .ok us) (root : String) (optimize : Bool) :
    (Manifest.of us p.table.entries root optimize).Integral p.table.entries
      (ds.map Descriptor.target) us := by
  have units := units_of_planEach planned
  have outputs : ∀ s, s ∈ (Manifest.of us p.table.entries root optimize).outputs ↔
      ∃ u ∈ us, u.namespaceName = s := by
    intro s
    exact (Manifest.mem_sortedNames_iff _ s).trans List.mem_map
  constructor
  case namespaces => exact Manifest.sortedEntries_perm _
  case namespaces_sorted => exact Manifest.sortedEntries_strict _
  case outputs_sorted => exact mergeSort_names_strict (nodup_eraseDups _)
  case outputs => exact outputs
  case units => rfl
  case targets =>
    rw [units, List.map_map, List.map_map]
    rfl
  case agree =>
    intro u member
    change u ∈ us at member
    rw [units, List.mem_map] at member
    obtain ⟨d, _, rfl⟩ := member
    refine ⟨d.target, rfl, ?_⟩
    rw [namespaceName_unitOf]
    exact congrArg (·.getD unresolved) (Manifest.find_sortedEntries _ _).symm
  case known =>
    intro s member
    obtain ⟨u, mem, rfl⟩ := (outputs s).1 member
    rw [units, List.mem_map] at mem
    obtain ⟨d, _, rfl⟩ := mem
    rw [namespaceName_unitOf]
    cases found : p.table.entries.get? d.target with
    | none => exact Or.inl rfl
    | some output =>
      have entry := (OrderedMap.get?_eq_some_iff _ _ _).1 found
      have sorted := (Manifest.sortedEntries_perm p.table.entries).mem_iff.2 entry
      exact Or.inr (List.mem_map_of_mem (f := Prod.snd) sorted)

/-- Four schemas, of which the table knows one. -/
theorem partly_known_manifest_integral :
    ∃ p us, (build partlyKnown "Ubl").outcome = .ok p ∧ p.planAll.outcome = .ok us ∧
      (Manifest.of us p.table.entries "Ubl" false).Integral p.table.entries
        ["urn:cac", "urn:x", "urn:y", "urn:x"] us := by
  have built := (outcome_build_eq_ok_iff partlyKnown "Ubl" false false defaultHome _).2
    ⟨by decide, by decide +kernel, rfl⟩
  have planned := (planAll_ofSchemas_lenient partlyKnown "Ubl" false defaultHome).1
  exact ⟨_, _, built, planned, manifest_integral planned "Ubl" false⟩

end Planner

end NamespacePlan
