import NamespacePlan.Manifest
import NamespacePlan.Proofs.MapWrites

/-! The sorted views of a manifest. Both orders are linear, so a view is fixed by its elements and
keeps no trace of the order in which they were met. -/
namespace NamespacePlan

open Distinct

namespace Descriptor

theorem bindingLe_iff (a b : String × String) :
    bindingLe a b = true ↔ a.1 < b.1 ∨ a.1 = b.1 ∧ a.2 ≤ b.2 := by
  simp only [bindingLe, Bool.or_eq_true, Bool.and_eq_true, decide_eq_true_eq, beq_iff_eq]

theorem bindingLe_trans (a b c : String × String) (left : bindingLe a b = true)
    (right : bindingLe b c = true) : bindingLe a c = true := by
  rw [bindingLe_iff] at left right ⊢
  rcases left with less | ⟨same, le⟩
  · rcases right with less' | ⟨same', _⟩
    · exact Or.inl (String.lt_trans less less')
    · exact Or.inl (same' ▸ less)
  · rcases right with less' | ⟨same', le'⟩
    · exact Or.inl (same ▸ less')
    · exact Or.inr ⟨same.trans same', String.le_trans le le'⟩

theorem bindingLe_total (a b : String × String) : (bindingLe a b || bindingLe b a) = true := by
  rw [Bool.or_eq_true, bindingLe_iff, bindingLe_iff]
  by_cases less : a.1 < b.1
  · exact Or.inl (Or.inl less)
  · by_cases more : b.1 < a.1
    · exact Or.inr (Or.inl more)
    · have same : a.1 = b.1 :=
        String.le_antisymm (String.not_lt.1 more) (String.not_lt.1 less)
      rcases String.le_total a.2 b.2 with le | le
      · exact Or.inl (Or.inr ⟨same, le⟩)
      · exact Or.inr (Or.inr ⟨same.symm, le⟩)

theorem bindingLe_antisymm (a b : String × String) (left : bindingLe a b = true)
    (right : bindingLe b a = true) : a = b := by
  rw [bindingLe_iff] at left right
  rcases left with less | ⟨same, le⟩
  · rcases right with more | ⟨same, _⟩
    · exact absurd more (String.lt_asymm less)
    · exact absurd (same ▸ less) (String.lt_irrefl _)
  · rcases right with more | ⟨_, ge⟩
    · exact absurd (same ▸ more) (String.lt_irrefl _)
    · exact Prod.ext same (String.le_antisymm le ge)

/-- Sorting forgets the order of the entries and nothing else. -/
theorem sorted_eq_iff_perm (m n : OrderedMap String String) :
    m.entries.mergeSort bindingLe = n.entries.mergeSort bindingLe ↔ m.entries.Perm n.entries := by
  constructor
  · intro same
    calc
      m.entries.Perm (m.entries.mergeSort bindingLe) := (List.mergeSort_perm _ _).symm
      List.Perm _ (n.entries.mergeSort bindingLe) := List.Perm.of_eq same
      List.Perm _ n.entries := List.mergeSort_perm _ _
  · intro perm
    exact mergeSort_eq_of_mem bindingLe_trans bindingLe_total bindingLe_antisymm m.nodup_entries
      n.nodup_entries fun _ => perm.mem_iff

end Descriptor

namespace Manifest

/-- Tables that are equal as mappings have one sorted form. -/
theorem sortedEntries_congr {t u : OrderedMap String String}
    (same : ∀ uri, t.get? uri = u.get? uri) : sortedEntries t = sortedEntries u :=
  (Descriptor.sorted_eq_iff_perm t u).2 ((OrderedMap.perm_iff_get? t u).2 same)

theorem sortedNames_congr {xs ys : List String} (same : ∀ s, s ∈ xs ↔ s ∈ ys) :
    xs.eraseDups.mergeSort = ys.eraseDups.mergeSort := by
  apply mergeSort_eq_of_mem nameLe_trans nameLe_total nameLe_antisymm
  · exact nodup_eraseDups xs
  · exact nodup_eraseDups ys
  · intro s
    rw [List.mem_eraseDups, List.mem_eraseDups, same]

end Manifest

end NamespacePlan
