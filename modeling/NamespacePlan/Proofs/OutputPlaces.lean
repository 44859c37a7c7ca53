import NamespacePlan.Proofs.FileWrites
import NamespacePlan.Proofs.SchemaSearch

/-! The place of an output file. A path that names no directory, in a directory that is there, can be
written, and leads to what was written. -/
namespace NamespacePlan

open NamespacePlan.Path

namespace Path

/-- What stands in front of the last name of a path, down to the slash; in front of a bare name it is
the place one is in. -/
def around (path : String) : String :=
  match (pieces path).dropLast with
  | [] => "."
  | ps => ofPieces (ps ++ [""])

theorem exists_last (path : String) : ∃ front last, pieces path = front ++ [last] := by
  have some : pieces path ≠ [] := by
    simpa [pieces] using Text.splitAt_ne_nil '/' path.toList
  exact (List.eq_nil_or_concat' (pieces path)).resolve_left some

section Last

variable {path last : String}

theorem around_bare (parts : pieces path = [last]) : around path = "." := by
  simp [around, parts]

theorem eq_last_of_bare (parts : pieces path = [last]) : path = last := by
  rw [← ofPieces_pieces path, parts, ofPieces_singleton]

theorem isAbsolute_bare (parts : pieces path = [last]) : isAbsolute path = false := by
  have slash : '/' ∉ path.toList := by
    rw [eq_last_of_bare parts]
    have member : last ∈ pieces path := by simp [parts]
    exact slash_not_mem_pieces member
  have head : path.toList.head? ≠ some '/' := fun h => slash (List.mem_of_mem_head? h)
  simpa [isAbsolute] using head

variable {front : List String} (more : front ≠ []) (parts : pieces path = front ++ [last])

include more parts

theorem eq_last_of_front : path = ofPieces front ++ "/" ++ last := by
  rw [← ofPieces_pieces path, parts, ofPieces_append more (by simp), ofPieces_singleton]

theorem around_front : around path = ofPieces (front ++ [""]) := by
  obtain ⟨p, ps, rfl⟩ := List.exists_cons_of_ne_nil more
  rw [around, parts, List.dropLast_concat]

theorem pieces_around : pieces (around path) = front ++ [""] := by
  rw [around_front more parts]
  apply pieces_ofPieces (by simp)
  intro p member
  rcases List.mem_append.1 member with inside | closed
  · have member : p ∈ pieces path := by simp [parts, inside]
    exact slash_not_mem_pieces member
  · simp [List.mem_singleton.1 closed]

theorem isAbsolute_around : isAbsolute (around path) = isAbsolute path := by
  rw [around_front more parts, ofPieces_append more (by simp), ofPieces_singleton,
    eq_last_of_front more parts]
  simp only [isAbsolute, toList_slash]
  cases (ofPieces front).toList <;> rfl

end Last

end Path

/-- What is around something that is there is a directory, and so is what is around nothing. -/
theorem FileNode.exists_directory_above {n : FileNode} {place : List String}
    {entries : List (String × FileNode)} (found : n.below? place = some (.directory entries)) :
    ∃ es, n.below? place.dropLast = some (.directory es) := by
  rcases List.eq_nil_or_concat' place with rfl | ⟨front, last, rfl⟩
  · exact ⟨entries, found⟩
  · rw [List.dropLast_concat]
    rw [below?_append, Option.bind_eq_some_iff] at found
    obtain ⟨m, above, below⟩ := found
    obtain ⟨es, rfl⟩ := isDirectory_of_below? below
    exact ⟨es, above⟩

namespace FileTree

theorem hasDirectory_iff {t : FileTree} {path : String} :
    t.hasDirectory path = true ↔ ∃ entries, t.find? path = some (.directory entries) := by
  unfold hasDirectory
  cases t.find? path with
  | none => simp
  | some n => cases n <;> simp [FileNode.isDirectory]

/-- A path that leads to an old or a new file, and to no directory. -/
structure Fileable (t : FileTree) (path : String) : Prop where
  nonempty : path ≠ ""
  nul : '\x00' ∉ path.toList
  closed : path.toList.getLast? ≠ some '/'
  inside : t.hasDirectory (around path) = true
  free : t.hasDirectory path = false

theorem steps_directory {t : FileTree} {pieces start goal : List String}
    (steps : (pieces ++ [""]).foldlM t.step start = .ok goal) :
    pieces.foldlM t.step start = .ok goal := by
  rw [List.foldlM_append] at steps
  cases first : pieces.foldlM t.step start with
  | error f => simp [first, bind, Except.bind] at steps
  | ok mid =>
    rw [first] at steps
    exact congrArg Except.ok (steps_empty (k := 1) steps)

/-- The directory around the last name is met on the way. -/
theorem follow_around {t : FileTree} {path : String} {front : List String} {last : String}
    (parts : pieces path = front ++ [last]) (inside : t.hasDirectory (around path) = true) :
    ∃ place entries, t.follow path front = .ok place ∧
      t.root.below? place = some (.directory entries) := by
  obtain ⟨entries, found⟩ := hasDirectory_iff.1 inside
  obtain ⟨_, _, place, steps, here⟩ := find?_eq_some found
  refine ⟨place, entries, ?_, here⟩
  by_cases bare : front = []
  · subst front
    have here_piece : pieces "." = ["."] := pieces_of_name (by decide)
    rw [around_bare parts, follow, here_piece] at steps
    obtain ⟨next, first, rest⟩ := steps_cons.1 steps
    obtain ⟨_, _, stays⟩ := step_eq_ok_iff.1 first
    rw [if_pos (Or.inr rfl)] at stays
    subst stays
    rw [follow, isAbsolute_bare parts]
    exact rest
  · rw [follow, pieces_around bare parts, isAbsolute_around bare parts] at steps
    exact steps_directory steps

section Fileable

variable {t : FileTree} {path : String} (fileable : Fileable t path)

include fileable

theorem Fileable.no_directory {entries : List (String × FileNode)} :
    t.find? path ≠ some (.directory entries) := by
  intro found
  have there := hasDirectory_iff.2 ⟨entries, found⟩
  rw [fileable.free] at there
  cases there

/-- The last step of the way leads to what is at the path. -/
theorem Fileable.find?_of_step {front place next : List String} {last : String}
    (parts : pieces path = front ++ [last]) (steps : t.follow path front = .ok place)
    (onward : t.step place last = .ok next) : t.find? path = t.root.below? next := by
  refine find?_of_follow fileable.nonempty fileable.nul ?_
  rw [follow] at steps ⊢
  rw [parts, List.foldlM_append, steps]
  exact steps_cons.2 ⟨next, onward, rfl⟩

/-- The last piece of such a path is the name of an entry. -/
theorem Fileable.last_named {front : List String} {last : String}
    (parts : pieces path = front ++ [last]) : last ≠ "" ∧ last ≠ "." ∧ last ≠ ".." := by
  obtain ⟨place, entries, steps, here⟩ := follow_around parts fileable.inside
  have nonempty : last ≠ "" := by
    rintro rfl
    by_cases bare : front = []
    · subst front
      exact fileable.nonempty (eq_last_of_bare parts)
    · apply fileable.closed
      rw [eq_last_of_front bare parts, toList_slash]
      simp
  have notDirectory : ∀ {next es}, t.step place last = .ok next →
      t.root.below? next ≠ some (.directory es) := by
    intro next es onward found
    exact fileable.no_directory ((fileable.find?_of_step parts steps onward).trans found)
  refine ⟨nonempty, ?_, ?_⟩
  · rintro rfl
    exact notDirectory (step_eq_ok_iff.2 ⟨entries, here, by simp⟩) here
  · rintro rfl
    obtain ⟨es, up⟩ := FileNode.exists_directory_above here
    exact notDirectory (step_eq_ok_iff.2 ⟨entries, here, by simp⟩) up

/-- Such a path can be written, at a place where no directory is. -/
theorem Fileable.exists_place : ∃ around last, (pieces path).getLast? = some last ∧
    t.writable path = .ok (around ++ [last]) ∧
    (∃ entries, t.root.below? around = some (.directory entries)) ∧
    t.find? path = t.root.below? (around ++ [last]) ∧
    ∀ u bytes, WrittenAt t u (around ++ [last]) bytes → u.locate path = .ok (around ++ [last]) := by
  obtain ⟨front, last, parts⟩ := exists_last path
  obtain ⟨around, entries, steps, here⟩ := follow_around parts fileable.inside
  obtain ⟨nonempty, notHere, notUp⟩ := fileable.last_named parts
  have trimmed : trimmedPieces path = front ++ [last] := by
    simp [trimmedPieces, parts, nonempty]
  have onward : t.follow path (front ++ [""]) = .ok around := by
    rw [follow] at steps ⊢
    rw [List.foldlM_append, steps]
    exact steps_cons.2 ⟨around, step_empty here, rfl⟩
  have found : t.find? path = t.root.below? (around ++ [last]) := by
    cases there : t.root.below? (around ++ [last]) with
    | some n =>
      have onward : t.step around last = .ok (around ++ [last]) := by
        refine step_eq_ok_iff.2 ⟨entries, here, ?_⟩
        simp [nonempty, notHere, notUp, there]
      exact (fileable.find?_of_step parts steps onward).trans there
    | none =>
      rw [Option.eq_none_iff_forall_ne_some]
      intro n present
      obtain ⟨_, _, place, whole, _⟩ := find?_eq_some present
      rw [follow] at steps whole
      rw [parts, List.foldlM_append, steps] at whole
      obtain ⟨_, step, _⟩ := steps_cons.1 whole
      obtain ⟨_, _, way⟩ := step_eq_ok_iff.1 step
      simp [nonempty, notHere, notUp, there] at way
  have free : ∀ es, t.root.below? (around ++ [last]) ≠ some (.directory es) := by
    intro es present
    exact fileable.no_directory (found.trans present)
  refine ⟨around, last, by rw [parts, List.getLast?_concat], ?_, ⟨entries, here⟩, found, ?_⟩
  · simp only [writable, trimmed, List.dropLast_concat, onward, List.getLast?_concat,
      Option.getD_some, nonempty, notHere, notUp, fileable.closed, or_self, if_false, bind,
      Except.bind]
  · intro u bytes written
    rw [locate, if_neg (by simp [fileable.nonempty, fileable.nul]), follow, parts, written.start]
    rw [follow] at steps
    rw [List.foldlM_append, written.steps steps]
    obtain ⟨es, now⟩ := (written.directory_iff around).2 ⟨entries, here⟩
    refine steps_cons.2 ⟨_, step_eq_ok_iff.2 ⟨es, now, ?_⟩, rfl⟩
    simp [nonempty, notHere, notUp, written.written]

end Fileable

end FileTree

end NamespacePlan
