import NamespacePlan.FileTree
import NamespacePlan.Proofs.MapWrites
import NamespacePlan.Proofs.PathTexts

/-! Trees of files whose directories list each name once. What a path leads to then does not depend
on the order in which the entries are listed. -/
namespace NamespacePlan

open NamespacePlan.Path

theorem rel_cases {α β : Type} {r : α → β → Prop} {x : Option α} {y : Option β}
    (related : Option.Rel r x y) :
    x = none ∧ y = none ∨ ∃ a b, x = some a ∧ y = some b ∧ r a b := by
  cases related with
  | none => exact Or.inl ⟨rfl, rfl⟩
  | some h => exact Or.inr ⟨_, _, rfl, rfl, h⟩

namespace FileNode

/-- Every directory in the tree lists proper names, each of them once. -/
inductive Proper : FileNode → Prop where
  | file (bytes : List UInt8) : Proper (.file bytes)
  | directory {entries : List (String × FileNode)} (nodup : (entries.map Prod.fst).Nodup)
      (names : ∀ e ∈ entries, IsName e.1) (below : ∀ e ∈ entries, Proper e.2) :
      Proper (.directory entries)

theorem lookup_eq_find (name : String) (entries : List (String × FileNode)) :
    entries.lookup name = OrderedMap.find name entries := by
  induction entries with
  | nil => rfl
  | cons e es ih =>
    rw [List.lookup_cons, OrderedMap.find, ih]
    by_cases same : e.1 = name
    · simp [same]
    · have other : (name == e.1) = false := by simpa using Ne.symm same
      rw [other, if_neg same]

theorem lookup_eq_some_iff {entries : List (String × FileNode)}
    (nodup : (entries.map Prod.fst).Nodup) (name : String) (n : FileNode) :
    entries.lookup name = some n ↔ (name, n) ∈ entries := by
  rw [lookup_eq_find, OrderedMap.find_eq_some_iff nodup]

theorem below?_cons (n : FileNode) (name : String) (names : List String) :
    n.below? (name :: names) = (n.child? name).bind fun m => m.below? names := by
  rw [below?, List.foldlM_cons]
  rfl

theorem below?_append (n : FileNode) (ms ns : List String) :
    n.below? (ms ++ ns) = (n.below? ms).bind fun m => m.below? ns := by
  rw [below?, List.foldlM_append]
  rfl

theorem below?_singleton (n : FileNode) (name : String) : n.below? [name] = n.child? name := by
  rw [below?_cons]
  cases n.child? name <;> rfl

theorem below?_concat {n m : FileNode} {names : List String} (found : n.below? names = some m)
    (name : String) : n.below? (names ++ [name]) = m.child? name := by
  rw [below?_append, found, Option.bind_some, below?_singleton]

theorem Proper.child {n m : FileNode} (proper : n.Proper) {name : String}
    (found : n.child? name = some m) : IsName name ∧ m.Proper := by
  cases proper with
  | file => cases found
  | directory nodup names below =>
    have member := (lookup_eq_some_iff nodup name m).1 found
    exact ⟨names _ member, below _ member⟩

theorem Proper.reached {n m : FileNode} (proper : n.Proper) {names : List String}
    (found : n.below? names = some m) : (∀ name ∈ names, IsName name) ∧ m.Proper := by
  induction names generalizing n with
  | nil =>
    cases found
    exact ⟨fun _ member => (nomatch member), proper⟩
  | cons name names ih =>
    rw [below?_cons, Option.bind_eq_some_iff] at found
    obtain ⟨k, first, rest⟩ := found
    have child := proper.child first
    have tail := ih child.2 rest
    refine ⟨fun x member => ?_, tail.2⟩
    rcases List.mem_cons.1 member with rfl | later
    · exact child.1
    · exact tail.1 x later

/-! The same tree, its entries perhaps listed in another order. -/

inductive Rearranged : FileNode → FileNode → Prop where
  | file (bytes : List UInt8) : Rearranged (.file bytes) (.file bytes)
  | directory {es fs : List (String × FileNode)} (names : (es.map Prod.fst).Perm (fs.map Prod.fst))
      (below : ∀ e ∈ es, ∀ f ∈ fs, e.1 = f.1 → Rearranged e.2 f.2) :
      Rearranged (.directory es) (.directory fs)

theorem Rearranged.proper {n m : FileNode} (same : n.Rearranged m) (proper : n.Proper) :
    m.Proper := by
  induction same with
  | file bytes => exact .file bytes
  | @directory es fs names below ih =>
    cases proper with
    | directory nodup proper_names proper_below =>
      have listed : ∀ f ∈ fs, ∃ e ∈ es, e.1 = f.1 := by
        intro f member
        exact List.mem_map.1 (names.mem_iff.2 (List.mem_map_of_mem (f := Prod.fst) member))
      refine .directory (names.nodup_iff.1 nodup) (fun f member => ?_) fun f member => ?_
      · obtain ⟨e, found, alike⟩ := listed f member
        exact alike ▸ proper_names e found
      · obtain ⟨e, found, alike⟩ := listed f member
        exact ih e found f member alike (proper_below e found)

theorem Rearranged.child? {n m : FileNode} (same : n.Rearranged m) (proper : n.Proper)
    (name : String) : Option.Rel Rearranged (n.child? name) (m.child? name) := by
  cases same with
  | file bytes => exact .none
  | @directory es fs names below =>
    cases proper with
    | directory nodup _ _ =>
      have nodup' := names.nodup_iff.1 nodup
      change Option.Rel Rearranged (es.lookup name) (fs.lookup name)
      cases first : es.lookup name with
      | none =>
        have absent : name ∉ fs.map Prod.fst := by
          rw [← names.mem_iff, ← OrderedMap.find_eq_none_iff, ← lookup_eq_find, first]
        rw [lookup_eq_find, (OrderedMap.find_eq_none_iff name fs).2 absent]
        exact .none
      | some k =>
        have member := (lookup_eq_some_iff nodup name k).1 first
        obtain ⟨⟨_, l⟩, found, rfl⟩ := List.mem_map.1
          (names.mem_iff.1 (List.mem_map_of_mem (f := Prod.fst) member))
        rw [(lookup_eq_some_iff nodup' _ l).2 found]
        exact .some (below _ member _ found rfl)

theorem Rearranged.below? {n m : FileNode} (same : n.Rearranged m) (proper : n.Proper)
    (names : List String) : Option.Rel Rearranged (n.below? names) (m.below? names) := by
  induction names generalizing n m with
  | nil => exact .some same
  | cons name names ih =>
    rw [below?_cons, below?_cons]
    rcases rel_cases (same.child? proper name) with ⟨left, right⟩ | ⟨k, l, left, right, alike⟩
    · rw [left, right]
      exact .none
    · rw [left, right]
      exact ih alike (proper.child left).2

end FileNode

namespace FileTree

/-! Following a path. -/

theorem step_empty {t : FileTree} {place : List String} {entries : List (String × FileNode)}
    (here : t.root.below? place = some (.directory entries)) : t.step place "" = .ok place := by
  simp [step, here]

theorem step_name {t : FileTree} {place : List String} {n m : FileNode} {name : String}
    (here : t.root.below? place = some n) (proper : IsName name)
    (found : n.child? name = some m) : t.step place name = .ok (place ++ [name]) := by
  cases n with
  | file bytes => cases found
  | directory entries =>
    have listed : (entries.lookup name).isSome := by
      change entries.lookup name = some m at found
      rw [found]
      rfl
    simp only [step, here, proper.nonempty, proper.here, proper.up, or_self, if_false, listed,
      if_true]

theorem steps_names {t : FileTree} {place : List String} {n m : FileNode} {names : List String}
    (here : t.root.below? place = some n) (proper : ∀ name ∈ names, IsName name)
    (found : n.below? names = some m) : names.foldlM t.step place = .ok (place ++ names) := by
  induction names generalizing place n with
  | nil => rw [List.append_nil]; rfl
  | cons name names ih =>
    rw [FileNode.below?_cons, Option.bind_eq_some_iff] at found
    obtain ⟨k, first, rest⟩ := found
    have there : t.root.below? (place ++ [name]) = some k := by
      rw [FileNode.below?_concat here, first]
    rw [List.foldlM_cons, step_name here (proper name List.mem_cons_self) first]
    exact (ih there (fun x member => proper x (List.mem_cons_of_mem name member)) rest).trans
      (by rw [List.append_assoc, List.singleton_append])

/-- Slashes at the end of a path are no step. -/
theorem steps_empty {t : FileTree} {place goal : List String} {k : Nat}
    (steps : (List.replicate k "").foldlM t.step place = .ok goal) : place = goal := by
  induction k generalizing place with
  | zero => exact Except.ok.inj steps
  | succ k ih =>
    rw [List.replicate_succ, List.foldlM_cons] at steps
    cases first : t.step place "" with
    | error f =>
      rw [first] at steps
      cases steps
    | ok next =>
      have stays : next = place := by
        unfold step at first
        split at first
        · cases first
        · cases first
        · exact (Except.ok.inj first).symm
      rw [first, stays] at steps
      exact ih steps

/-! The same tree in another order. -/

/-- Two trees that differ at most by the order in which their directories list their entries. -/
structure SameFiles (t u : FileTree) : Prop where
  root : t.root.Rearranged u.root
  place : t.place = u.place

section Same

variable {t u : FileTree} (same : SameFiles t u) (proper : t.root.Proper)

include same proper

theorem SameFiles.step (place : List String) (piece : String) :
    t.step place piece = u.step place piece := by
  unfold FileTree.step
  rcases rel_cases (same.root.below? proper place) with ⟨left, right⟩ | ⟨n, m, left, right, alike⟩
  · rw [left, right]
  · rw [left, right]
    have inside := rel_cases (alike.child? (proper.reached left).2 piece)
    cases alike with
    | file bytes => rfl
    | @directory es fs names below =>
      have listed : (es.lookup piece).isSome = (fs.lookup piece).isSome := by
        rcases inside with ⟨first, second⟩ | ⟨k, l, first, second, _⟩
        · change es.lookup piece = none at first
          change fs.lookup piece = none at second
          rw [first, second]
        · change es.lookup piece = some k at first
          change fs.lookup piece = some l at second
          rw [first, second]
          rfl
      simp only [listed]

theorem SameFiles.locate (path : String) : t.locate path = u.locate path := by
  have steps : t.step = u.step := by
    funext place piece
    exact same.step proper place piece
  simp only [FileTree.locate, follow, steps, same.place]

theorem SameFiles.find? (path : String) :
    Option.Rel FileNode.Rearranged (t.find? path) (u.find? path) := by
  unfold FileTree.find?
  rw [← same.locate proper path]
  cases t.locate path with
  | error f => exact .none
  | ok place => exact same.root.below? proper place

theorem SameFiles.fileBytes? (path : String) : t.fileBytes? path = u.fileBytes? path := by
  unfold FileTree.fileBytes?
  rcases rel_cases (same.find? proper path) with ⟨left, right⟩ | ⟨n, m, left, right, alike⟩
  · rw [left, right]
  · rw [left, right]
    cases alike <;> rfl

theorem SameFiles.hasDirectory (path : String) : t.hasDirectory path = u.hasDirectory path := by
  unfold FileTree.hasDirectory
  rcases rel_cases (same.find? proper path) with ⟨left, right⟩ | ⟨n, m, left, right, alike⟩
  · rw [left, right]
  · rw [left, right]
    cases alike <;> rfl

omit proper in
theorem SameFiles.absolute (path : String) : t.absolute path = u.absolute path := by
  simp only [FileTree.absolute, placeText, same.place]

end Same

end FileTree

end NamespacePlan
