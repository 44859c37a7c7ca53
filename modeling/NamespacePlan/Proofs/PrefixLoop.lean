import NamespacePlan.Prefixes
import NamespacePlan.Proofs.MapWrites

/-! The loop that gathers prefixes. Behind any number of bindings it has what counts among them, once
each, and under every URI the prefixes of what it has; so it ends as a search through the distinct
bindings does. -/
namespace NamespacePlan.Prefixes

open Distinct

/-- The bindings that count, schema by schema in declaration order. -/
def declared (ds : List Descriptor) : List (String × String) :=
  (ds.flatMap fun d => d.bindings.entries).filter fun b => !blocked.contains b.1

/-- Another prefix is bound to the URI of this binding. -/
def isContested (bs : List (String × String)) (b : String × String) : Bool :=
  bs.any fun c => c.2 == b.2 && c.1 != b.1

def prefixesOf (bs : List (String × String)) (uri : String) : List String :=
  (bs.filter fun b => b.2 == uri).map Prod.fst

theorem mem_prefixesOf {bs : List (String × String)} {uri p : String} :
    p ∈ prefixesOf bs uri ↔ (p, uri) ∈ bs := by
  simp only [prefixesOf, List.mem_map, List.mem_filter, beq_iff_eq]
  constructor
  · rintro ⟨b, ⟨member, rfl⟩, rfl⟩
    exact member
  · intro member
    exact ⟨(p, uri), ⟨member, rfl⟩, rfl⟩

theorem nodup_prefixesOf {bs : List (String × String)} (nodup : bs.Nodup) (uri : String) :
    (prefixesOf bs uri).Nodup := by
  refine List.pairwise_map.2 ((nodup.filter _).imp_of_mem fun ha hb differ same => ?_)
  have left := beq_iff_eq.1 (List.mem_filter.1 ha).2
  have right := beq_iff_eq.1 (List.mem_filter.1 hb).2
  exact differ (Prod.ext same (left.trans right.symm))

theorem prefixesOf_concat (bs : List (String × String)) (b : String × String) (uri : String) :
    prefixesOf (bs ++ [b]) uri =
      if b.2 = uri then prefixesOf bs uri ++ [b.1] else prefixesOf bs uri := by
  by_cases same : b.2 = uri <;> simp [prefixesOf, same]

/-! What the loop preserves. -/

/-- What has been gathered from bindings that are listed once each. -/
structure Gathers (bs : List (String × String)) (g : Gathered) : Prop where
  once : bs.Nodup
  pairs : g.pairs = bs
  uris : g.prefixes.keys = (bs.map Prod.snd).eraseDups
  prefixes : ∀ uri ∈ bs.map Prod.snd, g.prefixes.get? uri = some (prefixesOf bs uri)

theorem gathers_nothing : Gathers [] {} where
  once := .nil
  pairs := rfl
  uris := rfl
  prefixes := by simp

section Step

variable {bs : List (String × String)} {g : Gathered} (gathers : Gathers bs g)

include gathers

/-- The prefixes of a URI that has not come up are none. -/
theorem Gathers.known (uri : String) : (g.prefixes.get? uri).getD [] = prefixesOf bs uri := by
  by_cases member : uri ∈ bs.map Prod.snd
  · rw [gathers.prefixes uri member, Option.getD_some]
  · have absent : g.prefixes.get? uri = none := by
      rwa [OrderedMap.get?_eq_none_iff, gathers.uris, List.mem_eraseDups]
    have nothing : prefixesOf bs uri = [] := by
      apply List.eq_nil_iff_forall_not_mem.2
      intro p listed
      exact member (List.mem_map.2 ⟨_, mem_prefixesOf.1 listed, rfl⟩)
    rw [absent, nothing, Option.getD_none]

theorem Gathers.add {b : String × String} (counts : b.1 ∉ blocked) :
    Gathers (addNew bs b) (g.add b) := by
  unfold Gathered.add addNew
  by_cases seen : b ∈ bs
  · simpa [gathers.pairs, seen] using gathers
  · have new : b.1 ∉ prefixesOf bs b.2 := fun listed => seen (mem_prefixesOf.1 listed)
    simp only [gathers.pairs, gathers.known, List.contains_iff_mem, counts, seen, new, or_self,
      Bool.or_eq_true, if_false]
    refine ⟨List.nodup_append.2 ⟨gathers.once, by simp, ?_⟩, rfl, ?_, fun uri member => ?_⟩
    · rintro a member c last rfl
      exact seen (List.mem_singleton.1 last ▸ member)
    · rw [OrderedMap.keys_insert, gathers.uris, List.map_append, List.eraseDups_append]
      by_cases old : b.2 ∈ bs.map Prod.snd <;> simp [old, List.removeAll, List.eraseDups_cons]
    · rw [OrderedMap.get?_insert, prefixesOf_concat]
      by_cases own : b.2 = uri
      · subst uri
        rw [if_pos rfl, if_pos rfl]
      · rw [if_neg own, if_neg own]
        apply gathers.prefixes
        simpa [Ne.symm own] using member

theorem Gathers.addAll (cs : List (String × String)) :
    Gathers ((cs.filter fun b => !blocked.contains b.1).foldl addNew bs) (cs.foldl Gathered.add g) := by
  induction cs generalizing bs g with
  | nil => exact gathers
  | cons c cs ih =>
    by_cases counts : c.1 ∈ blocked
    · have skipped : g.add c = g := by simp [Gathered.add, counts]
      simpa [counts, skipped] using ih gathers
    · simpa [counts] using ih (gathers.add counts)

end Step

/-- Behind the loop over all schemas. -/
theorem gathers_declared (ds : List Descriptor) : Gathers (declared ds).eraseDups
    (ds.foldl (fun g d => d.bindings.entries.foldl Gathered.add g) {}) := by
  have whole := gathers_nothing.addAll (ds.flatMap fun d => d.bindings.entries)
  rw [List.foldl_flatMap, foldl_addNew] at whole
  have all : (declared ds).eraseDups.filter (· ∉ ([] : List (String × String))) =
      (declared ds).eraseDups := List.filter_eq_self.2 (by simp)
  rwa [← declared, all] at whole

/-! What is found behind the loop. -/

/-- More than one prefix is another one beside that of a binding. -/
theorem one_lt_length_prefixesOf_iff {bs : List (String × String)} (nodup : bs.Nodup)
    {b : String × String} (member : b ∈ bs) :
    1 < (prefixesOf bs b.2).length ↔ isContested bs b = true := by
  have own : b.1 ∈ prefixesOf bs b.2 := mem_prefixesOf.2 member
  have distinct := nodup_prefixesOf nodup b.2
  have others : isContested bs b = true ↔ ∃ p ∈ prefixesOf bs b.2, p ≠ b.1 := by
    simp only [isContested, List.any_eq_true, Bool.and_eq_true, beq_iff_eq, bne_iff_ne, mem_prefixesOf]
    constructor
    · rintro ⟨c, there, same, differ⟩
      exact ⟨c.1, same ▸ there, differ⟩
    · rintro ⟨p, there, differ⟩
      exact ⟨(p, b.2), there, rfl, differ⟩
  rw [others]
  generalize prefixesOf bs b.2 = ps at own distinct ⊢
  match ps, own, distinct with
  | [p], own, _ => simp [List.mem_singleton.1 own]
  | p :: q :: ps, _, distinct =>
    have differ : p ≠ q := fun same => (List.nodup_cons.1 distinct).1 (by simp [same])
    simp only [List.length_cons, Nat.lt_add_left_iff_pos, Nat.zero_lt_succ, true_iff]
    by_cases first : p = b.1
    · exact ⟨q, by simp, fun same => differ (first.trans same.symm)⟩
    · exact ⟨p, by simp, first⟩

theorem Gathers.entries {bs : List (String × String)} {g : Gathered} (gathers : Gathers bs g) :
    g.prefixes.entries = (bs.map Prod.snd).eraseDups.map fun uri => (uri, prefixesOf bs uri) := by
  have listed : ∀ uri ∈ g.prefixes.keys, g.prefixes.get? uri = some (prefixesOf bs uri) := by
    intro uri member
    rw [gathers.uris, List.mem_eraseDups] at member
    exact gathers.prefixes uri member
  have whole := OrderedMap.map_keys g.prefixes
  rw [List.map_congr_left fun uri member => congrArg (Prod.mk uri) (listed uri member),
    gathers.uris] at whole
  have pairs := congrArg (List.map fun e : String × Option (List String) => (e.1, e.2.getD [])) whole
  simpa [Function.comp_def] using pairs.symm

theorem collect_eq (ds : List Descriptor) : collect ds =
    match (declared ds).eraseDups.find? (isContested (declared ds).eraseDups) with
    | some b => .error (Conflict.ofPrefixes b.2 (prefixesOf (declared ds).eraseDups b.2))
    | none => .ok (declared ds).eraseDups := by
  have gathers := gathers_declared ds
  unfold collect
  generalize ds.foldl (fun g d => d.bindings.entries.foldl Gathered.add g) {} = g at gathers ⊢
  generalize (declared ds).eraseDups = bs at gathers ⊢
  have same : bs.find? (fun b => 1 < (prefixesOf bs b.2).length) = bs.find? (isContested bs) := by
    rw [← List.head?_filter, ← List.head?_filter]
    refine congrArg List.head? (List.filter_congr fun b member => ?_)
    rw [Bool.eq_iff_iff, decide_eq_true_iff]
    exact one_lt_length_prefixesOf_iff gathers.once member
  have found : g.prefixes.entries.find? (fun e => 1 < e.2.length) =
      (bs.find? (isContested bs)).map fun b => (b.2, prefixesOf bs b.2) := by
    rw [gathers.entries, List.find?_map, find?_eraseDups, List.find?_map, ← same, Option.map_map]
    rfl
  dsimp only
  rw [found, gathers.pairs]
  cases bs.find? (isContested bs) <;> rfl

end NamespacePlan.Prefixes
