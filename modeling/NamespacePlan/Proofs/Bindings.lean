import NamespacePlan.Proofs.PrefixLoop

/-! What a set of schemas binds. Everything that the prefixes decide is told by one relation, so it
depends neither on the order of the schemas nor on how often a binding is declared. -/
namespace NamespacePlan

open Distinct

/-- Some schema binds the URI under this prefix, and the prefix counts. -/
def Binds (ds : List Descriptor) (uri p : String) : Prop :=
  p ∉ Prefixes.blocked ∧ ∃ d ∈ ds, (p, uri) ∈ d.bindings.entries

instance (ds : List Descriptor) (uri p : String) : Decidable (Binds ds uri p) :=
  inferInstanceAs (Decidable (_ ∧ _))

def Bound (ds : List Descriptor) (uri : String) : Prop := ∃ p, Binds ds uri p

/-- Every URI has at most one prefix that counts. -/
def SinglePrefix (ds : List Descriptor) : Prop :=
  ∀ uri p q, Binds ds uri p → Binds ds uri q → p = q

/-- The bound URIs, by first binding. -/
def boundUris (ds : List Descriptor) : List String := ((Prefixes.declared ds).map Prod.snd).eraseDups

namespace Prefixes

theorem mem_declared_iff (ds : List Descriptor) (b : String × String) :
    b ∈ declared ds ↔ Binds ds b.2 b.1 := by
  simp only [declared, List.mem_filter, List.mem_flatMap, Binds, Bool.not_eq_true',
    List.contains_eq_mem, decide_eq_false_iff_not]
  exact And.comm

theorem isContested_iff (bs : List (String × String)) (b : String × String) :
    isContested bs b = true ↔ ∃ c ∈ bs, c.2 = b.2 ∧ c.1 ≠ b.1 := by
  simp only [isContested, List.any_eq_true, Bool.and_eq_true, beq_iff_eq, bne_iff_ne]

theorem find_contested_eq_none_iff (ds : List Descriptor) :
    (declared ds).eraseDups.find? (isContested (declared ds).eraseDups) = none ↔
      SinglePrefix ds := by
  simp only [List.find?_eq_none, isContested_iff, List.mem_eraseDups, mem_declared_iff]
  constructor
  · intro peaceful uri p q hp hq
    apply Decidable.byContradiction
    intro differ
    exact peaceful (q, uri) hq ⟨(p, uri), hp, rfl, differ⟩
  · rintro single b hb ⟨c, hc, same, differ⟩
    exact differ (single b.2 c.1 b.1 (same ▸ hc) hb)

instance (ds : List Descriptor) : Decidable (SinglePrefix ds) :=
  decidable_of_iff _ (find_contested_eq_none_iff ds)

theorem collect_of_single {ds : List Descriptor} (single : SinglePrefix ds) :
    collect ds = .ok (declared ds).eraseDups := by
  rw [collect_eq, (find_contested_eq_none_iff ds).2 single]

theorem collect_of_conflict {ds : List Descriptor} (conflict : ¬ SinglePrefix ds) :
    ∃ c, collect ds = .error c := by
  cases contested : (declared ds).eraseDups.find? (isContested (declared ds).eraseDups) with
  | none => exact absurd ((find_contested_eq_none_iff ds).1 contested) conflict
  | some b =>
    refine ⟨Conflict.ofPrefixes b.2 (prefixesOf (declared ds).eraseDups b.2), ?_⟩
    rw [collect_eq, contested]

theorem collect_congr {ds es : List Descriptor}
    (same : (declared ds).eraseDups = (declared es).eraseDups) : collect ds = collect es := by
  rw [collect_eq, collect_eq, same]

theorem declared_append (ds es : List Descriptor) :
    declared (ds ++ es) = declared ds ++ declared es := by
  simp only [declared, List.flatMap_append, List.filter_append]

/-- A schema that stands further to the left declares nothing new. -/
theorem declared_repeated {ds : List Descriptor} {d : Descriptor} (member : d ∈ ds)
    (es : List Descriptor) :
    (declared (ds ++ d :: es)).eraseDups = (declared (ds ++ es)).eraseDups := by
  -- all that the repeated schema declares has been declared by its first occurrence
  have known : ∀ b ∈ declared [d], b ∈ declared ds := by
    intro b hb
    obtain ⟨counts, c, hc, entry⟩ := (mem_declared_iff [d] b).1 hb
    have same : c = d := List.mem_singleton.1 hc
    exact (mem_declared_iff ds b).2 ⟨counts, d, member, same ▸ entry⟩
  have split : declared (ds ++ d :: es) = declared ds ++ declared [d] ++ declared es := by
    rw [← declared_append, ← declared_append, List.append_assoc, List.singleton_append]
  rw [split, eraseDups_append_of_subset known, declared_append]

end Prefixes

theorem mem_boundUris_iff (ds : List Descriptor) (uri : String) :
    uri ∈ boundUris ds ↔ Bound ds uri := by
  simp only [boundUris, List.mem_eraseDups, List.mem_map, Prefixes.mem_declared_iff, Bound]
  constructor
  · rintro ⟨b, binds, rfl⟩
    exact ⟨b.1, binds⟩
  · rintro ⟨p, binds⟩
    exact ⟨(p, uri), binds, rfl⟩

instance (ds : List Descriptor) (uri : String) : Decidable (Bound ds uri) :=
  decidable_of_iff _ (mem_boundUris_iff ds uri)

end NamespacePlan
