import NamespacePlan.ImportGraph
import NamespacePlan.Proofs.MapWrites

/-! Names below a root and the graph that is put below it. A qualified name says which key it came
from, so qualifying a graph neither merges its entries nor moves them. -/
namespace NamespacePlan

namespace Identifier

theorem qualify_of_ne_empty {key : String} (named : key ≠ "") (root : String) :
    qualify root key = root ++ "." ++ key := if_neg named

theorem below_ne_root (root s : String) : root ++ "." ++ s ≠ root := by
  intro same
  rw [String.append_assoc, String.append_eq_left_iff] at same
  have dots := congrArg String.toList same
  simp at dots

theorem below_injective {root s t : String} (same : root ++ "." ++ s = root ++ "." ++ t) :
    s = t := (String.append_right_inj _).1 same

theorem qualify_eq_root_iff (root key : String) : qualify root key = root ↔ key = "" := by
  constructor
  · intro same
    apply Decidable.byContradiction
    intro named
    rw [qualify_of_ne_empty named] at same
    exact below_ne_root root key same
  · intro empty
    exact if_pos empty

theorem qualify_injective {root j k : String} (same : qualify root j = qualify root k) :
    j = k := by
  by_cases hj : j = ""
  · rw [hj] at same ⊢
    exact ((qualify_eq_root_iff root k).1 same.symm).symm
  · by_cases hk : k = ""
    · rw [hk] at same ⊢
      exact (qualify_eq_root_iff root j).1 same
    · rw [qualify_of_ne_empty hj, qualify_of_ne_empty hk] at same
      exact below_injective same

end Identifier

namespace ImportGraph

open Identifier

theorem keys_qualified_entries (root : String) (g : ImportGraph) :
    (g.entries.map fun e => (qualify root e.1, e.2.map (qualify root))).map Prod.fst =
      g.keys.map (qualify root) := by
  simp only [List.map_map, OrderedMap.keys, Function.comp_def]

theorem entries_qualified (root : String) (g : ImportGraph) :
    (qualified root g).entries =
      g.entries.map fun e => (qualify root e.1, e.2.map (qualify root)) := by
  apply OrderedMap.entries_ofList_of_nodup
  rw [keys_qualified_entries]
  exact List.Pairwise.map (qualify root)
    (fun _ _ other same => other (qualify_injective same)) g.nodup_keys

theorem keys_qualified (root : String) (g : ImportGraph) :
    (qualified root g).keys = g.keys.map (qualify root) := by
  rw [OrderedMap.keys, entries_qualified, keys_qualified_entries]

theorem get?_qualified (root : String) (g : ImportGraph) (key : String) :
    (qualified root g).get? (qualify root key) = (g.get? key).map (List.map (qualify root)) := by
  rw [OrderedMap.get?, entries_qualified, OrderedMap.get?]
  induction g.entries with
  | nil => rfl
  | cons e es ih =>
    by_cases here : e.1 = key
    · simp only [List.map_cons, OrderedMap.find, here, if_true, Option.map_some]
    · have other : qualify root e.1 ≠ qualify root key := fun same => here (qualify_injective same)
      simp only [List.map_cons, OrderedMap.find, if_neg here, if_neg other, ih]

theorem get?_qualified_eq_none {root x : String} {g : ImportGraph}
    (other : ∀ key ∈ g.keys, x ≠ qualify root key) : (qualified root g).get? x = none := by
  rw [OrderedMap.get?_eq_none_iff, keys_qualified, List.mem_map]
  rintro ⟨key, member, same⟩
  exact other key member same.symm

/-! Renaming. -/

/-- The second graph is the first one under other names. Every name is that of one key, each key
keeps its place, and it imports under their names what it imported, in order. -/
structure Renamed (rename : String → String) (g h : ImportGraph) : Prop where
  listed : ∀ x, h.contains x = true ↔ ∃ key ∈ g.keys, x = rename key
  apart : ∀ j k, rename j = rename k → j = k
  imports : ∀ key, h.get? (rename key) = (g.get? key).map (List.map rename)
  order : h.keys = g.keys.map rename
  size : h.entries.length = g.entries.length

theorem Renamed.unique {rename : String → String} {g h k : ImportGraph}
    (left : Renamed rename g h) (right : Renamed rename g k) : h = k := by
  apply OrderedMap.eq_of_keys_of_get?
  · rw [left.order, right.order]
  · intro x member
    obtain ⟨key, _, rfl⟩ := (left.listed x).1 ((OrderedMap.contains_iff h x).2 member)
    rw [left.imports, right.imports]

theorem renamed_qualified (root : String) (g : ImportGraph) :
    Renamed (qualify root) g (qualified root g) := by
  constructor
  case listed =>
    intro x
    rw [OrderedMap.contains_iff, keys_qualified, List.mem_map]
    simp only [eq_comm]
  case apart => exact fun j k same => qualify_injective same
  case imports => exact get?_qualified root g
  case order => exact keys_qualified root g
  case size => rw [entries_qualified, List.length_map]

/-- The graph below a root is the bare one with every name qualified, and no other graph is. -/
theorem qualified_exact (root : String) (g : ImportGraph) :
    Renamed (qualify root) g (qualified root g) ∧
      ∀ h, Renamed (qualify root) g h ↔ h = qualified root g := by
  have renamed := renamed_qualified root g
  refine ⟨renamed, fun h => ⟨fun other => other.unique renamed, ?_⟩⟩
  rintro rfl
  exact renamed

/-! The two graphs of the modes. -/

theorem select_keys_dotless (optimize : Bool) :
    ∀ key ∈ (select optimize).keys, '.' ∉ key.toList := by
  cases optimize <;> decide

theorem select_abstract (optimize : Bool) :
    ∃ deps, (select optimize).get? "Abs" = some deps ∧ deps ≠ [] := by
  cases optimize
  · exact ⟨["Udt", "Ext", "Cbc"], by decide, by decide⟩
  · exact ⟨["Udt", "Ext"], by decide, by decide⟩

/-- A dotted name is no key below the root. -/
theorem get?_build_of_dotted {s : String} (dotted : '.' ∈ s.toList) (optimize : Bool)
    (root : String) : (build optimize root).get? (root ++ "." ++ s) = none := by
  apply get?_qualified_eq_none
  intro key member same
  have named : s ≠ "" := by
    rintro rfl
    simp at dotted
  rw [← qualify_of_ne_empty named] at same
  have key_dotted : '.' ∈ key.toList := qualify_injective same ▸ dotted
  exact select_keys_dotless optimize key member key_dotted

theorem get?_build_abstract (optimize : Bool) (root : String) :
    ∃ deps, (build optimize root).get? (root ++ ".Abs") = some deps ∧ deps ≠ [] := by
  obtain ⟨deps, found, some_deps⟩ := select_abstract optimize
  have key : root ++ ".Abs" = qualify root "Abs" := by
    rw [qualify_of_ne_empty (by decide), String.append_assoc]
    rfl
  refine ⟨deps.map (qualify root), ?_, fun none => some_deps (List.map_eq_nil_iff.1 none)⟩
  rw [key]
  exact (get?_qualified root (select optimize) "Abs").trans (by rw [found, Option.map_some])

end ImportGraph

end NamespacePlan
