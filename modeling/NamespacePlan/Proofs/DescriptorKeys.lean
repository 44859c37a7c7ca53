import Mathlib.Data.List.Perm.Subperm
import NamespacePlan.Proofs.Rearrangement

/-! When two descriptors are the same. Equality compares the bindings as mappings and the key lists
them sorted; both tell which entries there are and not in what order, so equal descriptors are those
with one key. -/
namespace NamespacePlan

namespace OrderedMap

variable {κ ν : Type} [DecidableEq κ]

/-- As many entries, each of them found in the other map, are all entries of the other map. -/
theorem perm_of_length_of_get? {m n : OrderedMap κ ν}
    (length : m.entries.length = n.entries.length)
    (found : ∀ e ∈ m.entries, n.get? e.1 = some e.2) : m.entries.Perm n.entries := by
  have held : m.entries ⊆ n.entries := fun e member => (get?_eq_some_iff n _ _).1 (found e member)
  exact (List.subperm_of_subset m.nodup_entries held).perm_of_length_le (Nat.le_of_eq length.symm)

end OrderedMap

namespace Descriptor

theorem sameBindings_iff_perm (m n : OrderedMap String String) :
    sameBindings m n = true ↔ m.entries.Perm n.entries := by
  simp only [sameBindings, Bool.and_eq_true, beq_iff_eq, List.all_eq_true]
  constructor
  · rintro ⟨length, found⟩
    exact OrderedMap.perm_of_length_of_get? length found
  · intro perm
    refine ⟨perm.length_eq, fun e member => ?_⟩
    exact (OrderedMap.get?_eq_some_iff n _ _).2 (perm.mem_iff.1 member)

variable (d e : Descriptor)

theorem rearranged_iff : d.Rearranged e ↔ d.target = e.target ∧
    d.bindings.entries.Perm e.bindings.entries ∧ d.maindoc = e.maindoc ∧
    d.location = e.location := by
  constructor
  · rintro ⟨target, bindings, maindoc, location⟩
    exact ⟨target, bindings, maindoc, location⟩
  · rintro ⟨target, bindings, maindoc, location⟩
    exact ⟨target, bindings, maindoc, location⟩

theorem same_iff_rearranged : d.same e = true ↔ d.Rearranged e := by
  simp only [rearranged_iff, same, Bool.and_eq_true, beq_iff_eq, sameBindings_iff_perm, and_assoc]

theorem key_eq_iff_rearranged : d.key = e.key ↔ d.Rearranged e := by
  simp only [rearranged_iff, key, Prod.mk.injEq, sorted_eq_iff_perm]

/-- The descriptors differ in a field, or there is a prefix that they bind differently. -/
def Differs : Prop :=
  d.target ≠ e.target ∨ (∃ p, d.bindings.get? p ≠ e.bindings.get? p) ∨ d.maindoc ≠ e.maindoc ∨
    d.location ≠ e.location

theorem differs_iff : d.Differs e ↔ ¬ d.Rearranged e := by
  simp only [Differs, rearranged_iff, OrderedMap.perm_iff_get?, not_and_or, not_forall, ne_eq]

/-- What a descriptor is hashed by. -/
abbrev Key := String × List (String × String) × Option Bool × Option String

/-- Descriptors are equal exactly when their keys are, which is when they have the same fields and the
same bindings in whatever order; so no hash of the keys tells equal ones apart, and a difference in
any field or binding shows in the key. -/
theorem key_exact :
    (d.same e = true ↔ d.key = e.key) ∧
    (d.same e = true ↔ d.Rearranged e) ∧
    (∀ {Hash : Type} (hash : Key → Hash), d.same e = true → hash d.key = hash e.key) ∧
    (d.Differs e ↔ d.key ≠ e.key) := by
  have one_key : d.same e = true ↔ d.key = e.key :=
    (same_iff_rearranged d e).trans (key_eq_iff_rearranged d e).symm
  refine ⟨one_key, same_iff_rearranged d e, ?_, ?_⟩
  · intro Hash hash same
    exact congrArg hash (one_key.1 same)
  · rw [differs_iff, ne_eq, key_eq_iff_rearranged]

def declaredOnce : Descriptor :=
  ⟨"urn:doc", OrderedMap.ofList [("cbc", "urn:cbc"), ("", "urn:doc"), ("cac", "urn:cac")], none, none⟩

/-- The same bindings in another order. -/
def declaredTurned : Descriptor :=
  ⟨"urn:doc", OrderedMap.ofList [("cac", "urn:cac"), ("cbc", "urn:cbc"), ("", "urn:doc")], none, none⟩

/-- Another prefix for one of the URIs. -/
def declaredRenamed : Descriptor :=
  ⟨"urn:doc", OrderedMap.ofList [("cac", "urn:cac"), ("cb", "urn:cbc"), ("", "urn:doc")], none, none⟩

theorem turned_keys_agree :
    declaredOnce ≠ declaredTurned ∧ declaredOnce.same declaredTurned = true ∧
      hash declaredOnce.key = hash declaredTurned.key ∧
      declaredOnce.key ≠ declaredRenamed.key ∧
      declaredOnce.key ≠ { declaredOnce with maindoc := some false }.key := by
  have same : declaredOnce.same declaredTurned = true := by decide
  obtain ⟨_, _, hashed, _⟩ := key_exact declaredOnce declaredTurned
  obtain ⟨_, _, _, renamed⟩ := key_exact declaredOnce declaredRenamed
  obtain ⟨_, _, _, decided⟩ := key_exact declaredOnce { declaredOnce with maindoc := some false }
  refine ⟨?_, same, hashed hash same, renamed.1 ?_, decided.1 ?_⟩
  · intro equal
    have entries := congrArg (fun d => d.bindings.entries) equal
    exact absurd entries (by decide)
  · exact Or.inr (Or.inl ⟨"cb", by decide⟩)
  · exact Or.inr (Or.inr (Or.inl (by decide)))

end Descriptor

end NamespacePlan
