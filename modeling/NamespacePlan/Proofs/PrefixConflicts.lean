import NamespacePlan.Proofs.Bindings

/-! How collecting the prefixes of schemas ends. It fails if a URI has two prefixes that count, over the
URI that comes up first among those and with all its prefixes; else it lists what is bound. -/
namespace NamespacePlan

open Distinct

/-- The URI has two prefixes that count. -/
def Contested (ds : List Descriptor) (uri : String) : Prop :=
  ∃ p q, p ≠ q ∧ Binds ds uri p ∧ Binds ds uri q

namespace Prefixes

/-- The conflict that counts: no contested URI is declared before, and no prefix is left out. -/
structure FirstConflict (ds : List Descriptor) (c : Conflict) : Prop where
  contested : Contested ds c.uri
  first : ∃ before p after, declared ds = before ++ (p, c.uri) :: after ∧
    ∀ b ∈ before, ¬Contested ds b.2
  prefixes : ∀ p, p ∈ c.prefixes ↔ Binds ds c.uri p
  increasing : c.prefixes.Pairwise (· < ·)

/-- Every binding once, where it comes up first, and no URI twice. -/
structure Collected (ds : List Descriptor) (bs : List (String × String)) : Prop where
  bindings : ∀ b, b ∈ bs ↔ Binds ds b.2 b.1
  order : bs.Pairwise fun a b => (declared ds).idxOf a < (declared ds).idxOf b
  once : bs.Nodup
  uris : (bs.map Prod.snd).Nodup

section Outcomes

variable {ds : List Descriptor}

theorem singlePrefix_iff : SinglePrefix ds ↔ ¬∃ uri, Contested ds uri := by
  constructor
  · rintro single ⟨uri, p, q, differ, hp, hq⟩
    exact differ (single uri p q hp hq)
  · intro peaceful uri p q hp hq
    apply Decidable.byContradiction
    intro differ
    exact peaceful ⟨uri, p, q, differ, hp, hq⟩

theorem isContested_eraseDups_iff {b : String × String} (binds : Binds ds b.2 b.1) :
    isContested (declared ds).eraseDups b = true ↔ Contested ds b.2 := by
  simp only [isContested_iff, List.mem_eraseDups, mem_declared_iff]
  constructor
  · rintro ⟨c, hc, same, differ⟩
    exact ⟨c.1, b.1, differ, same ▸ hc, binds⟩
  · rintro ⟨p, q, differ, hp, hq⟩
    -- one of the two prefixes is another one than that of the binding
    by_cases own : p = b.1
    · subst p
      exact ⟨(q, b.2), hq, rfl, differ.symm⟩
    · exact ⟨(p, b.2), hp, rfl, own⟩

theorem mem_prefixesOf_iff (uri p : String) :
    p ∈ prefixesOf (declared ds).eraseDups uri ↔ Binds ds uri p := by
  rw [mem_prefixesOf, List.mem_eraseDups, mem_declared_iff]

/-! The conflict. -/

theorem firstConflict_of_collect {c : Conflict} (failed : collect ds = .error c) :
    FirstConflict ds c := by
  rw [collect_eq] at failed
  split at failed
  case h_2 => cases failed
  case h_1 b found =>
    cases failed
    rw [find?_eraseDups, List.find?_eq_some_iff_append] at found
    obtain ⟨contested, before, after, split, earlier⟩ := found
    have binds : ∀ a ∈ before ++ [b], Binds ds a.2 a.1 := by
      intro a member
      apply (mem_declared_iff ds a).1
      rw [split, List.append_cons]
      exact List.mem_append_left after member
    refine ⟨?_, ⟨before, b.1, after, split, fun a member => ?_⟩, fun p => ?_, ?_⟩
    · exact (isContested_eraseDups_iff (binds b (by simp))).1 contested
    · have peaceful := earlier a member
      rw [Bool.not_eq_true', ← Bool.not_eq_true] at peaceful
      exact fun h => peaceful ((isContested_eraseDups_iff (binds a (by simp [member]))).2 h)
    · exact (List.mem_mergeSort).trans (mem_prefixesOf_iff b.2 p)
    · exact mergeSort_names_strict (nodup_prefixesOf (nodup_eraseDups _) b.2)

theorem FirstConflict.unique {c c' : Conflict} (left : FirstConflict ds c)
    (right : FirstConflict ds c') : c = c' := by
  classical
  -- both URIs are what a search through the declarations finds
  have found : ∀ {e : Conflict}, FirstConflict ds e →
      ((declared ds).find? fun b => Contested ds b.2).map Prod.snd = some e.uri := by
    intro e conflict
    obtain ⟨before, p, after, split, earlier⟩ := conflict.first
    have here : (declared ds).find? (fun b => Contested ds b.2) = some (p, e.uri) :=
      List.find?_eq_some_iff_append.2 ⟨decide_eq_true conflict.contested, before, after, split,
        fun b member => by simpa using earlier b member⟩
    rw [here, Option.map_some]
  have uri : c.uri = c'.uri := Option.some.inj ((found left).symm.trans (found right))
  have prefixes : c.prefixes = c'.prefixes := by
    refine eq_of_pairwise_of_mem String.lt_asymm left.increasing right.increasing fun p => ?_
    rw [left.prefixes, right.prefixes, uri]
  cases c
  cases c'
  cases uri
  cases prefixes
  rfl

/-! The list of bindings. -/

theorem collected_of_single (single : SinglePrefix ds) : Collected ds (declared ds).eraseDups where
  bindings b := by rw [List.mem_eraseDups, mem_declared_iff]
  order := (Listing.eraseDups (declared ds)).order
  once := nodup_eraseDups _
  uris := by
    refine List.pairwise_map.2 ((nodup_eraseDups (declared ds)).imp_of_mem ?_)
    intro a b ha hb differ same
    rw [List.mem_eraseDups, mem_declared_iff] at ha hb
    exact differ (Prod.ext (single b.2 a.1 b.1 (same ▸ ha) hb) same)

theorem Collected.unique {bs bs' : List (String × String)} (left : Collected ds bs)
    (right : Collected ds bs') : bs = bs' :=
  eq_of_pairwise_of_mem Nat.lt_asymm left.order right.order
    fun b => (left.bindings b).trans (right.bindings b).symm

theorem collect_eq_error_iff {c : Conflict} : collect ds = .error c ↔ FirstConflict ds c := by
  constructor
  · exact firstConflict_of_collect
  · intro conflict
    have several : ¬SinglePrefix ds := fun single =>
      singlePrefix_iff.1 single ⟨_, conflict.contested⟩
    obtain ⟨c', failed⟩ := collect_of_conflict several
    rw [failed, conflict.unique (firstConflict_of_collect failed)]

theorem collect_eq_ok_iff {bs : List (String × String)} :
    collect ds = .ok bs ↔ SinglePrefix ds ∧ Collected ds bs := by
  by_cases single : SinglePrefix ds
  · have collected := collected_of_single single
    rw [collect_of_single single]
    constructor
    · rintro ⟨⟩
      exact ⟨single, collected⟩
    · rintro ⟨_, listed⟩
      rw [collected.unique listed]
  · obtain ⟨c, failed⟩ := collect_of_conflict single
    simp [failed, single]

end Outcomes

/-- Collecting fails exactly over a contested URI, and what it fails with or gives is the one thing that
the schemas allow. -/
theorem collect_settles (ds : List Descriptor) :
    ((∃ c, collect ds = .error c) ↔ ∃ uri, Contested ds uri) ∧
    (∀ c, collect ds = .error c ↔ FirstConflict ds c) ∧
    ((∃ bs, collect ds = .ok bs) ↔ ¬∃ uri, Contested ds uri) ∧
    ∀ bs, collect ds = .ok bs ↔ (¬∃ uri, Contested ds uri) ∧ Collected ds bs := by
  refine ⟨⟨?_, fun contested => ?_⟩, fun _ => collect_eq_error_iff, ⟨?_, fun peaceful => ?_⟩, ?_⟩
  · rintro ⟨c, failed⟩
    exact ⟨c.uri, (collect_eq_error_iff.1 failed).contested⟩
  · exact collect_of_conflict fun single => singlePrefix_iff.1 single contested
  · rintro ⟨bs, collected⟩
    exact singlePrefix_iff.1 (collect_eq_ok_iff.1 collected).1
  · exact ⟨_, collect_of_single (singlePrefix_iff.2 peaceful)⟩
  · intro bs
    rw [collect_eq_ok_iff, singlePrefix_iff]

/-- The URI that is bound first counts, even where another one is contested before it is. -/
example : collect
    [{ target := "urn:a", bindings := .ofList [("p", "urn:x"), ("q", "urn:y"), ("r", "urn:y")] },
     { target := "urn:b", bindings := .ofList [("abs", "urn:x"), ("b", "urn:x")] }] =
    .error ⟨"urn:x", ["b", "p"]⟩ := by cbv

end Prefixes

end NamespacePlan
