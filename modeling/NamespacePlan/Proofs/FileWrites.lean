import Mathlib.Tactic.SplitIfs
import NamespacePlan.Proofs.FileTrees

/-! A file written into a tree. Its place holds the bytes afterwards, and every other place holds what
it held before. -/
namespace NamespacePlan

namespace FileNode

/-- The bytes of a file; a directory has none. -/
def content? : FileNode → Option (List UInt8)
  | file bytes => some bytes
  | directory _ => none

theorem content?_eq_none {n : FileNode} (h : n.content? = none) : ∃ entries, n = directory entries := by
  cases n with
  | file bytes => cases h
  | directory entries => exact ⟨entries, rfl⟩

/-! One entry. -/

theorem find_overwritten (name : String) (n : FileNode) (other : String)
    (entries : List (String × FileNode)) :
    OrderedMap.find other (entries.map fun e => if e.1 = name then (name, n) else e) =
      if other = name then (OrderedMap.find name entries).map fun _ => n
      else OrderedMap.find other entries := by
  induction entries with
  | nil => simp [OrderedMap.find]
  | cons e es ih =>
    by_cases here : e.1 = name
    · by_cases same : name = other
      · simp [OrderedMap.find, here, same]
      · simp [OrderedMap.find, here, same, ih, Ne.symm same]
    · by_cases same : other = name
      · subst other
        simpa [OrderedMap.find, here] using ih
      · simp [OrderedMap.find, here, same, ih]

theorem find_appended (name : String) (n : FileNode) (other : String)
    {entries : List (String × FileNode)} (absent : ∀ e ∈ entries, e.1 ≠ name) :
    OrderedMap.find other (entries ++ [(name, n)]) =
      if other = name then some n else OrderedMap.find other entries := by
  induction entries with
  | nil => simp [OrderedMap.find, eq_comm]
  | cons e es ih =>
    have rest := ih fun f member => absent f (List.mem_cons_of_mem e member)
    by_cases here : e.1 = other
    · have different : other ≠ name := here ▸ absent e List.mem_cons_self
      simp [OrderedMap.find, here, different]
    · simp [OrderedMap.find, here, rest]

theorem lookup_putChild (name : String) (n : FileNode) (entries : List (String × FileNode))
    (other : String) : (putChild name n entries).lookup other =
      if other = name then some n else entries.lookup other := by
  unfold putChild
  split
  · rename_i present
    obtain ⟨⟨_, m⟩, member, same⟩ := List.any_eq_true.1 present
    have listed : name ∈ entries.map Prod.fst := List.mem_map.2 ⟨_, member, beq_iff_eq.1 same⟩
    obtain ⟨k, found⟩ := Option.ne_none_iff_exists'.1 fun none =>
      (OrderedMap.find_eq_none_iff name entries).1 none listed
    simp only [lookup_eq_find, find_overwritten, found, Option.map_some]
  · rename_i absent
    simp only [lookup_eq_find]
    apply find_appended
    intro e member same
    exact absent (List.any_eq_true.2 ⟨e, member, beq_iff_eq.2 same⟩)

theorem child?_plant (n : FileNode) (name : String) (names : List String) (around : FileNode)
    (other : String) : (n.plant (name :: names) around).child? other =
      if other = name then some (n.plant names ((around.child? name).getD (directory [])))
      else around.child? other := by
  cases around with
  | file bytes => simp only [plant, child?, lookup_putChild, List.lookup_nil, Option.getD_none]
  | directory entries => simp only [plant, child?, lookup_putChild]

/-! An entry that is written twice. -/

theorem putChild_putChild (name : String) (n m : FileNode) (entries : List (String × FileNode)) :
    putChild name n (putChild name m entries) = putChild name n entries := by
  unfold putChild
  by_cases present : entries.any fun e => e.1 == name
  · have kept : ((entries.map fun e => if e.1 = name then (name, m) else e).any
        fun e => e.1 == name) = true := by
      obtain ⟨e, member, same⟩ := List.any_eq_true.1 present
      refine List.any_eq_true.2 ⟨(name, m), List.mem_map.2 ⟨e, member, ?_⟩, beq_self_eq_true name⟩
      rw [if_pos (beq_iff_eq.1 same)]
    rw [if_pos present, if_pos kept, if_pos present, List.map_map]
    apply List.map_congr_left
    intro e _
    by_cases here : e.1 = name <;> simp [here]
  · have absent : ∀ e ∈ entries, e.1 ≠ name := fun e member same =>
      present (List.any_eq_true.2 ⟨e, member, beq_iff_eq.2 same⟩)
    have others : entries.map (fun e => if e.1 = name then (name, n) else e) = entries :=
      (List.map_congr_left fun e member => if_neg (absent e member)).trans (List.map_id entries)
    simp [present, others]

theorem plant_plant (n m : FileNode) (place : List String) (around : FileNode) :
    n.plant place (m.plant place around) = n.plant place around := by
  induction place generalizing around with
  | nil => rfl
  | cons name names ih => simp [plant, lookup_putChild, putChild_putChild, ih]

/-! All places. -/

theorem below?_plant_self (n : FileNode) (place : List String) (around : FileNode) :
    (n.plant place around).below? place = some n := by
  induction place generalizing around with
  | nil => rfl
  | cons name names ih => simp [below?_cons, child?_plant, ih]

theorem below?_file_cons (bytes : List UInt8) (name : String) (names : List String) :
    (file bytes).below? (name :: names) = none := rfl

theorem isDirectory_of_below? {n m : FileNode} {name : String} {names : List String}
    (found : n.below? (name :: names) = some m) : ∃ entries, n = directory entries := by
  cases n with
  | file bytes => simp [below?_file_cons] at found
  | directory entries => exact ⟨entries, rfl⟩

/-- A file put where no directory is leaves every other place as it was. -/
theorem content_plant (bytes : List UInt8) {place : List String} {around : FileNode}
    (named : place ≠ []) (inside : ∃ entries, around.below? place.dropLast = some (directory entries))
    (free : ∀ entries, around.below? place ≠ some (directory entries)) {q : List String}
    (other : q ≠ place) : (((file bytes).plant place around).below? q).map content? =
      (around.below? q).map content? := by
  induction place generalizing around q with
  | nil => exact absurd rfl named
  | cons name names ih =>
    obtain ⟨entries, there⟩ := inside
    obtain ⟨es, rfl⟩ : ∃ es, around = directory es := by
      cases names with
      | nil => exact ⟨entries, Option.some.inj there⟩
      | cons x xs => exact isDirectory_of_below? there
    cases q with
    | nil => rfl
    | cons x xs =>
      rw [below?_cons, below?_cons, child?_plant]
      by_cases same : x = name
      · subst x
        rw [if_pos rfl, Option.bind_some]
        have below : xs ≠ names := fun h => other (by rw [h])
        cases names with
        | nil =>
          -- nothing is below the file, and nothing was
          obtain ⟨y, ys, rfl⟩ := List.exists_cons_of_ne_nil below
          cases child : (directory es).child? name with
          | none => rfl
          | some k =>
            cases k with
            | file bs => rfl
            | directory fs =>
              apply absurd _ (free fs)
              simp [child, below?]
        | cons y ys =>
          rw [List.dropLast_cons_of_ne_nil (List.cons_ne_nil y ys), below?_cons,
            Option.bind_eq_some_iff] at there
          obtain ⟨k, child, rest⟩ := there
          rw [child, Option.getD_some, Option.bind_some]
          apply ih (List.cons_ne_nil y ys) ⟨entries, rest⟩ _ below
          intro fs found
          apply free fs
          rw [below?_cons, child, Option.bind_some, found]
      · rw [if_neg same]

end FileNode

namespace FileTree

/-! Following a path before and after. -/

theorem steps_cons {t : FileTree} {piece : String} {pieces place goal : List String} :
    (piece :: pieces).foldlM t.step place = .ok goal ↔
      ∃ next, t.step place piece = .ok next ∧ pieces.foldlM t.step next = .ok goal := by
  rw [List.foldlM_cons]
  cases t.step place piece with
  | error f => exact ⟨fun h => (nomatch h), fun ⟨_, h, _⟩ => (nomatch h)⟩
  | ok next =>
    constructor
    · exact fun h => ⟨next, rfl, h⟩
    · rintro ⟨_, same, h⟩
      cases same
      exact h

/-- A step leads on from a directory: nowhere, up, or to one of its entries. -/
theorem step_eq_ok_iff {t : FileTree} {place next : List String} {piece : String} :
    t.step place piece = .ok next ↔
      ∃ entries, t.root.below? place = some (.directory entries) ∧
        if piece = "" ∨ piece = "." then next = place
        else if piece = ".." then next = place.dropLast
        else (t.root.below? (place ++ [piece])).isSome ∧ next = place ++ [piece] := by
  unfold step
  cases found : t.root.below? place with
  | none => simp
  | some n =>
    cases n with
    | file bytes => simp
    | directory entries =>
      rw [FileNode.below?_concat found]
      simp only [FileNode.child?, Option.some.injEq, FileNode.directory.injEq, exists_eq_left']
      split
      · simp [eq_comm]
      · split
        · simp [eq_comm]
        · split
          · rename_i there
            simp [there, eq_comm]
          · rename_i there
            simp [there]

/-- A file written at a place where no directory was. -/
structure WrittenAt (t u : FileTree) (place : List String) (bytes : List UInt8) : Prop where
  start : u.place = t.place
  written : u.root.below? place = some (.file bytes)
  free : ∀ entries, t.root.below? place ≠ some (.directory entries)
  others : ∀ q, q ≠ place →
    (u.root.below? q).map FileNode.content? = (t.root.below? q).map FileNode.content?

theorem writtenAt_put (t : FileTree) {around : List String} {last : String} (bytes : List UInt8)
    (inside : ∃ entries, t.root.below? around = some (.directory entries))
    (free : ∀ entries, t.root.below? (around ++ [last]) ≠ some (.directory entries)) :
    WrittenAt t (t.put (around ++ [last]) bytes) (around ++ [last]) bytes where
  start := rfl
  written := FileNode.below?_plant_self _ _ t.root
  free := free
  others _ other := FileNode.content_plant bytes (by simp)
    (by rw [List.dropLast_concat]; exact inside) free other

theorem put_put (t : FileTree) (place : List String) (bytes bytes' : List UInt8) :
    (t.put place bytes).put place bytes' = t.put place bytes' := by
  unfold put
  rw [FileNode.plant_plant]

section Written

variable {t u : FileTree} {place : List String} {bytes : List UInt8}
  (written : WrittenAt t u place bytes)

include written

theorem WrittenAt.isSome {q : List String} (other : q ≠ place) :
    (u.root.below? q).isSome = (t.root.below? q).isSome := by
  have same := congrArg Option.isSome (written.others q other)
  simpa using same

theorem WrittenAt.directory_iff (q : List String) :
    (∃ entries, u.root.below? q = some (.directory entries)) ↔
      ∃ entries, t.root.below? q = some (.directory entries) := by
  by_cases here : q = place
  · subst q
    constructor
    · rintro ⟨entries, found⟩
      cases found.symm.trans written.written
    · rintro ⟨entries, found⟩
      exact absurd found (written.free entries)
  · have same := written.others q here
    constructor
    · rintro ⟨entries, found⟩
      rw [found, Option.map_some, eq_comm, Option.map_eq_some_iff] at same
      obtain ⟨n, old, none⟩ := same
      obtain ⟨es, rfl⟩ := FileNode.content?_eq_none none
      exact ⟨es, old⟩
    · rintro ⟨entries, found⟩
      rw [found, Option.map_some, Option.map_eq_some_iff] at same
      obtain ⟨n, new, none⟩ := same
      obtain ⟨es, rfl⟩ := FileNode.content?_eq_none none
      exact ⟨es, new⟩

/-- What could be followed before can be followed now. -/
theorem WrittenAt.step {start next : List String} {piece : String}
    (old : t.step start piece = .ok next) : u.step start piece = .ok next := by
  obtain ⟨entries, there, way⟩ := step_eq_ok_iff.1 old
  obtain ⟨es, here⟩ := (written.directory_iff start).2 ⟨entries, there⟩
  refine step_eq_ok_iff.2 ⟨es, here, ?_⟩
  split_ifs at way ⊢
  · exact way
  · exact way
  · refine ⟨?_, way.2⟩
    by_cases target : start ++ [piece] = place
    · rw [target, written.written]
      rfl
    · rw [written.isSome target]
      exact way.1

theorem WrittenAt.steps {pieces start goal : List String}
    (old : pieces.foldlM t.step start = .ok goal) : pieces.foldlM u.step start = .ok goal := by
  induction pieces generalizing start with
  | nil => exact old
  | cons piece pieces ih =>
    obtain ⟨next, first, rest⟩ := steps_cons.1 old
    exact steps_cons.2 ⟨next, written.step first, ih rest⟩

/-- What can be followed only now leads to the file. -/
theorem WrittenAt.new_step {start next : List String} {piece : String}
    (new : u.step start piece = .ok next) : t.step start piece = .ok next ∨ next = place := by
  obtain ⟨entries, there, way⟩ := step_eq_ok_iff.1 new
  obtain ⟨es, here⟩ := (written.directory_iff start).1 ⟨entries, there⟩
  by_cases target : next = place
  · exact Or.inr target
  · refine Or.inl (step_eq_ok_iff.2 ⟨es, here, ?_⟩)
    split_ifs at way ⊢
    · exact way
    · exact way
    · obtain ⟨some, rfl⟩ := way
      rw [written.isSome target] at some
      exact ⟨some, rfl⟩

theorem WrittenAt.new_steps {pieces start goal : List String}
    (new : pieces.foldlM u.step start = .ok goal) :
    pieces.foldlM t.step start = .ok goal ∨ goal = place := by
  induction pieces generalizing start with
  | nil => exact Or.inl new
  | cons piece pieces ih =>
    obtain ⟨next, first, rest⟩ := steps_cons.1 new
    rcases written.new_step first with old | rfl
    · exact (ih rest).imp_left fun h => steps_cons.2 ⟨next, old, h⟩
    · -- a file is no step on the way
      cases pieces with
      | nil => exact Or.inr (Except.ok.inj rest).symm
      | cons x xs =>
        obtain ⟨_, second, _⟩ := steps_cons.1 rest
        obtain ⟨es, there, _⟩ := step_eq_ok_iff.1 second
        cases there.symm.trans written.written

end Written

end FileTree

end NamespacePlan
