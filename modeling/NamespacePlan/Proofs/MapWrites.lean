import NamespacePlan.OrderedMap
import NamespacePlan.Proofs.Distinct

/-! Maps after a run of writes. The last write of a key decides its value, and the first one its
place; a write that only fills a gap decides neither where the key is listed already. -/
namespace NamespacePlan.OrderedMap

open Distinct

variable {κ ν δ : Type} [DecidableEq κ]

theorem find_eq_none_iff (k : κ) (es : List (κ × ν)) :
    find k es = none ↔ k ∉ es.map Prod.fst := by
  induction es with
  | nil => simp [find]
  | cons e es ih =>
    by_cases here : e.1 = k
    · simp [find, here]
    · have other : k ≠ e.1 := fun h => here h.symm
      simp only [find, if_neg here, ih, List.map_cons, List.mem_cons, other, false_or]

theorem find_eq_some_iff {es : List (κ × ν)} (nodup : (es.map Prod.fst).Nodup) (k : κ) (v : ν) :
    find k es = some v ↔ (k, v) ∈ es := by
  induction es with
  | nil => simp [find]
  | cons e es ih =>
    rw [List.map_cons, List.nodup_cons] at nodup
    by_cases here : e.1 = k
    · have absent : (k, v) ∉ es := by
        intro member
        exact nodup.1 (here ▸ List.mem_map_of_mem (f := Prod.fst) member)
      have entry : (k, v) = e ↔ e.2 = v := by
        constructor
        · intro h
          rw [← h]
        · intro h
          rw [← here, ← h]
      simp only [find, if_pos here, Option.some.injEq, List.mem_cons, absent, or_false, entry]
    · have other : (k, v) ≠ e := fun h => here (by rw [← h])
      simp only [find, if_neg here, ih nodup.2, List.mem_cons, other, false_or]

theorem get?_eq_none_iff (m : OrderedMap κ ν) (k : κ) : m.get? k = none ↔ k ∉ m.keys :=
  find_eq_none_iff k m.entries

theorem get?_eq_some_iff (m : OrderedMap κ ν) (k : κ) (v : ν) :
    m.get? k = some v ↔ (k, v) ∈ m.entries :=
  find_eq_some_iff m.nodup_keys k v

theorem contains_iff (m : OrderedMap κ ν) (k : κ) : m.contains k = true ↔ k ∈ m.keys := by
  have h := get?_eq_none_iff m k
  rw [contains, Option.isSome_iff_ne_none, ne_eq, h, Decidable.not_not]

theorem mem_keys_iff (m : OrderedMap κ ν) (k : κ) : k ∈ m.keys ↔ ∃ v, m.get? k = some v := by
  rw [← contains_iff, contains, Option.isSome_iff_exists]

omit [DecidableEq κ] in
theorem nodup_entries (m : OrderedMap κ ν) : m.entries.Nodup :=
  List.Pairwise.of_map Prod.fst (fun _ _ other same => other (congrArg Prod.fst same)) m.nodup_keys

/-- Maps are equal as mappings when they hold the same entries in whatever order. -/
theorem perm_iff_get? (m n : OrderedMap κ ν) :
    m.entries.Perm n.entries ↔ ∀ k, m.get? k = n.get? k := by
  rw [List.perm_ext_iff_of_nodup m.nodup_entries n.nodup_entries]
  constructor
  · intro same k
    apply Option.ext
    intro v
    rw [get?_eq_some_iff, get?_eq_some_iff, same]
  · intro same e
    rw [← get?_eq_some_iff m e.1 e.2, ← get?_eq_some_iff n e.1 e.2, same]

theorem map_keys (m : OrderedMap κ ν) :
    (m.keys.map fun k => (k, m.get? k)) = m.entries.map fun e => (e.1, some e.2) := by
  rw [keys, List.map_map]
  refine List.map_congr_left fun e member => ?_
  exact congrArg (Prod.mk e.1) ((get?_eq_some_iff m e.1 e.2).2 member)

/-- Maps with the same values under the same keys, in one order, are one map. -/
theorem eq_of_keys_of_get? {m n : OrderedMap κ ν} (order : m.keys = n.keys)
    (same : ∀ k ∈ m.keys, m.get? k = n.get? k) : m = n := by
  have pairs : (m.entries.map fun e => (e.1, some e.2)) = n.entries.map fun e => (e.1, some e.2) := by
    rw [← map_keys m, ← map_keys n, ← order]
    exact List.map_congr_left fun k member => congrArg (Prod.mk k) (same k member)
  apply ext
  refine (List.map_inj_right fun d e equal => ?_).1 pairs
  obtain ⟨key, value⟩ := Prod.mk.inj equal
  exact Prod.ext key (Option.some.inj value)

theorem get?_insertNew (m : OrderedMap κ ν) (k : κ) (v : ν) (j : κ) :
    (m.insertNew k v).get? j = (m.get? j).or (if k = j then some v else none) := by
  unfold insertNew
  split
  · rename_i listed
    obtain ⟨w, found⟩ := (mem_keys_iff m k).1 ((contains_iff m k).1 listed)
    by_cases same : k = j
    · rw [← same, found]
      rfl
    · rw [if_neg same, Option.or_none]
  · rename_i missing
    have absent : m.get? k = none :=
      (get?_eq_none_iff m k).2 fun member => missing ((contains_iff m k).2 member)
    by_cases same : k = j
    · rw [get?_insert, if_pos same, if_pos same, ← same, absent]
      rfl
    · rw [get?_insert, if_neg same, if_neg same, Option.or_none]

theorem keys_insertNew (m : OrderedMap κ ν) (k : κ) (v : ν) :
    (m.insertNew k v).keys = addNew m.keys k := by
  unfold insertNew addNew
  by_cases listed : k ∈ m.keys
  · rw [if_pos ((contains_iff m k).2 listed), if_pos listed]
  · rw [if_neg (fun h => listed ((contains_iff m k).1 h)), if_neg listed, keys_insert,
      if_neg listed]

theorem insertNew_of_mem {m : OrderedMap κ ν} {k : κ} (listed : k ∈ m.keys) (v : ν) :
    m.insertNew k v = m := by
  rw [insertNew, if_pos ((contains_iff m k).2 listed)]

section Runs

variable (key : δ → κ) (value : δ → ν)

theorem keys_foldl_insert (ws : List δ) (m : OrderedMap κ ν) :
    (ws.foldl (fun m w => m.insert (key w) (value w)) m).keys =
      m.keys ++ (ws.map key).eraseDups.filter (· ∉ m.keys) := by
  rw [← foldl_addNew]
  induction ws generalizing m with
  | nil => rfl
  | cons w ws ih =>
    rw [List.foldl_cons, ih, keys_insert]
    rfl

theorem get?_foldl_insert_of_unwritten {ws : List δ} {k : κ} (unwritten : ∀ w ∈ ws, key w ≠ k)
    (m : OrderedMap κ ν) :
    (ws.foldl (fun m w => m.insert (key w) (value w)) m).get? k = m.get? k := by
  induction ws generalizing m with
  | nil => rfl
  | cons w ws ih =>
    have tail : ∀ x ∈ ws, key x ≠ k := fun x member =>
      unwritten x (List.mem_cons_of_mem w member)
    rw [List.foldl_cons, ih tail, get?_insert, if_neg (unwritten w List.mem_cons_self)]

/-- The last write of a key decides its value. -/
theorem get?_foldl_insert_of_last (before : List δ) (w : δ) {after : List δ}
    (last : ∀ x ∈ after, key x ≠ key w) (m : OrderedMap κ ν) :
    ((before ++ w :: after).foldl (fun m w => m.insert (key w) (value w)) m).get? (key w) =
      some (value w) := by
  rw [List.foldl_append, List.foldl_cons, get?_foldl_insert_of_unwritten key value last,
    get?_insert, if_pos rfl]

/-- Writes that agree on a key give it their value, whichever of them comes last. -/
theorem get?_foldl_insert_of_agree {ws : List δ} {w : δ} (member : w ∈ ws)
    (agree : ∀ x ∈ ws, key x = key w → value x = value w) (m : OrderedMap κ ν) :
    (ws.foldl (fun m w => m.insert (key w) (value w)) m).get? (key w) = some (value w) := by
  induction ws generalizing w m with
  | nil => cases member
  | cons x ws ih =>
    have tail : ∀ y ∈ ws, key y = key w → value y = value w := fun y hy =>
      agree y (List.mem_cons_of_mem x hy)
    rw [List.foldl_cons]
    by_cases again : ∃ y ∈ ws, key y = key w
    · obtain ⟨y, hy, same⟩ := again
      -- w itself may stand in front, so the induction goes on with the later write
      have found := ih hy
        (fun z hz h => (tail z hz (h.trans same)).trans (tail y hy same).symm)
        (m.insert (key x) (value x))
      rw [← same, found, tail y hy same]
    · have unwritten : ∀ y ∈ ws, key y ≠ key w := fun y hy same => again ⟨y, hy, same⟩
      have first : x = w := by
        rcases List.mem_cons.1 member with h | h
        · exact h.symm
        · exact absurd rfl (unwritten w h)
      rw [get?_foldl_insert_of_unwritten key value unwritten, first, get?_insert, if_pos rfl]

end Runs

/-- A run that writes no key twice is over the map like a second map. -/
theorem get?_foldl_insert_of_nodup {es : List (κ × ν)} (nodup : (es.map Prod.fst).Nodup)
    (m : OrderedMap κ ν) (k : κ) :
    (es.foldl (fun m e => m.insert e.1 e.2) m).get? k = (find k es).or (m.get? k) := by
  induction es generalizing m with
  | nil => rfl
  | cons e es ih =>
    rw [List.map_cons, List.nodup_cons] at nodup
    rw [List.foldl_cons, ih nodup.2, get?_insert]
    by_cases here : e.1 = k
    · have absent : find k es = none := (find_eq_none_iff k es).2 (here ▸ nodup.1)
      simp [find, here, absent]
    · simp [find, here]

theorem put_of_new {k : κ} {es : List (κ × ν)} (new : k ∉ es.map Prod.fst) (v : ν) :
    put k v es = es ++ [(k, v)] := by
  induction es with
  | nil => rfl
  | cons e es ih =>
    rw [List.map_cons, List.mem_cons, not_or] at new
    rw [put, if_neg fun same => new.1 same.symm, ih new.2, List.cons_append]

theorem entries_foldl_insert_of_new (es : List (κ × ν)) (m : OrderedMap κ ν)
    (nodup : ((m.entries ++ es).map Prod.fst).Nodup) :
    (es.foldl (fun m e => m.insert e.1 e.2) m).entries = m.entries ++ es := by
  induction es generalizing m with
  | nil => rw [List.foldl_nil, List.append_nil]
  | cons e es ih =>
    have new : e.1 ∉ m.entries.map Prod.fst := by
      intro old
      rw [List.map_append, List.nodup_append] at nodup
      exact nodup.2.2 e.1 old e.1 (List.mem_map_of_mem List.mem_cons_self) rfl
    have step : (m.insert e.1 e.2).entries = m.entries ++ [e] := put_of_new new e.2
    rw [List.foldl_cons, ih, step, List.append_assoc, List.singleton_append]
    rwa [step, List.append_assoc, List.singleton_append]

theorem entries_ofList_of_nodup {es : List (κ × ν)} (nodup : (es.map Prod.fst).Nodup) :
    (ofList es).entries = es :=
  entries_foldl_insert_of_new es empty nodup

theorem keys_ofList (es : List (κ × ν)) : (ofList es).keys = (es.map Prod.fst).eraseDups := by
  have h := keys_foldl_insert Prod.fst Prod.snd es (empty : OrderedMap κ ν)
  rw [ofList, h]
  simp [keys, empty]

theorem keys_foldl_insertNew (ks : List κ) (v : ν) (m : OrderedMap κ ν) :
    (ks.foldl (fun m k => m.insertNew k v) m).keys =
      m.keys ++ ks.eraseDups.filter (· ∉ m.keys) := by
  rw [← foldl_addNew]
  induction ks generalizing m with
  | nil => rfl
  | cons k ks ih => rw [List.foldl_cons, ih, keys_insertNew, List.foldl_cons]

theorem get?_foldl_insertNew (ks : List κ) (v : ν) (m : OrderedMap κ ν) (j : κ) :
    (ks.foldl (fun m k => m.insertNew k v) m).get? j =
      (m.get? j).or (if j ∈ ks then some v else none) := by
  induction ks generalizing m with
  | nil => simp
  | cons k ks ih =>
    rw [List.foldl_cons, ih, get?_insertNew, Option.or_assoc]
    congr 1
    by_cases same : k = j
    · simp [same]
    · have other : j ≠ k := fun h => same h.symm
      simp [same, other]

end NamespacePlan.OrderedMap
