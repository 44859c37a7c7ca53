import NamespacePlan.Proofs.OutputPlaces
import NamespacePlan.Proofs.SchemaLoading

/-! A tree with one file more, which is no schema. Wherever the file lies, and whatever signs stand in
the name of the directory, a search for schemas finds what it found before. -/
namespace NamespacePlan

open NamespacePlan.Path

namespace FileNode

/-- Nothing is new, or one file is, whose name has not the last letter of a schema's. -/
inductive Grows (bytes : List UInt8) : FileNode → FileNode → Prop
  | same (n : FileNode) : Grows bytes n n
  | here (entries : List (String × FileNode)) {name : String}
      (ending : name.toList.getLast? ≠ some 'd') :
      Grows bytes (.directory entries) (.directory (entries ++ [(name, .file bytes)]))
  | inside (before after : List (String × FileNode)) (name : String) {n m : FileNode}
      (grows : Grows bytes n m) :
      Grows bytes (.directory (before ++ (name, n) :: after))
        (.directory (before ++ (name, m) :: after))

/-- What is found in a tree before and after: nothing, the new file, or the same but for it. -/
inductive Seen (bytes : List UInt8) : Option FileNode → Option FileNode → Prop
  | none : Seen bytes none none
  | new : Seen bytes none (some (.file bytes))
  | some {n m : FileNode} (grows : n.Grows bytes m) : Seen bytes (some n) (some m)

variable {bytes : List UInt8} {n m : FileNode}

theorem Seen.same (x : Option FileNode) : Seen bytes x x := by
  cases x with
  | none => exact .none
  | some n => exact .some (.same n)

theorem Grows.isDirectory (grows : n.Grows bytes m) : m.isDirectory = n.isDirectory := by
  cases grows <;> rfl

theorem Grows.child? (grows : n.Grows bytes m) (name : String) :
    Seen bytes (n.child? name) (m.child? name) := by
  cases grows with
  | same => exact .same _
  | here entries ending =>
    rw [FileNode.child?, FileNode.child?, List.lookup_append]
    cases entries.lookup name with
    | some k => exact .same _
    | none =>
      rw [Option.none_or, List.lookup_cons]
      split
      · exact .new
      · exact .none
  | inside before after key grows =>
    rw [FileNode.child?, FileNode.child?, List.lookup_append, List.lookup_append]
    cases before.lookup name with
    | some k => exact .same _
    | none =>
      rw [Option.none_or, Option.none_or, List.lookup_cons, List.lookup_cons]
      split
      · exact .some grows
      · exact .same _

theorem Grows.below? (grows : n.Grows bytes m) (place : List String) :
    Seen bytes (n.below? place) (m.below? place) := by
  induction place generalizing n m with
  | nil => exact .some grows
  | cons name names ih =>
    rw [below?_cons, below?_cons]
    have step := grows.child? name
    generalize n.child? name = x, m.child? name = y at step ⊢
    cases step with
    | none => exact .none
    | new =>
      cases names with
      | nil => exact .new
      | cons next rest => exact .none
    | some inner => exact ih inner

theorem putChild_of_absent {name : String} {entries : List (String × FileNode)}
    (absent : entries.lookup name = none) (n : FileNode) :
    putChild name n entries = entries ++ [(name, n)] := by
  have other : (entries.any fun e => e.1 == name) = false := by
    rw [List.any_eq_false]
    intro e member same
    have found := List.lookup_eq_none_iff.1 absent e member
    rw [beq_iff_eq.1 same] at found
    simp at found
  simp [putChild, other]

theorem putChild_of_present {name : String} {before after : List (String × FileNode)} {k : FileNode}
    (nodup : ((before ++ (name, k) :: after).map Prod.fst).Nodup) (n : FileNode) :
    putChild name n (before ++ (name, k) :: after) = before ++ (name, n) :: after := by
  rw [List.map_append, List.map_cons, List.nodup_middle, List.nodup_cons, ← List.map_append] at nodup
  have keeps : ∀ es : List (String × FileNode), es ⊆ before ++ after →
      es.map (fun e => if e.1 = name then (name, n) else e) = es := by
    intro es part
    refine (List.map_congr_left fun e member => ?_).trans (List.map_id es)
    have other : e.1 ≠ name := by
      rintro rfl
      exact nodup.1 (List.mem_map.2 ⟨e, part member, rfl⟩)
    rw [if_neg other, id]
  have there : ((before ++ (name, k) :: after).any fun e => e.1 == name) = true := by simp
  rw [putChild, if_pos there, List.map_append, List.map_cons, if_pos rfl,
    keeps before (List.subset_append_left _ _), keeps after (List.subset_append_right _ _)]

/-- A new file in a directory of the tree. -/
theorem grows_plant (proper : n.Proper) {around : List String} {last : String}
    (inside : ∃ entries, n.below? around = some (.directory entries))
    (absent : n.below? (around ++ [last]) = none) (ending : last.toList.getLast? ≠ some 'd') :
    n.Grows bytes ((file bytes).plant (around ++ [last]) n) := by
  induction around generalizing n with
  | nil =>
    obtain ⟨entries, same⟩ := inside
    cases same
    rw [List.nil_append, below?_singleton] at absent
    change Grows bytes _ (directory (putChild last (file bytes) entries))
    rw [putChild_of_absent absent]
    exact .here entries ending
  | cons name names ih =>
    obtain ⟨entries', found⟩ := inside
    obtain ⟨entries, rfl⟩ := isDirectory_of_below? found
    rw [List.cons_append, below?_cons] at *
    cases child : (directory entries).child? name with
    | none =>
      rw [child] at found
      cases found
    | some k =>
      rw [child, Option.bind_some] at found absent
      have listed : entries.lookup name = some k := child
      have inner := ih (proper.child child).2 ⟨entries', found⟩ absent
      cases proper with
      | directory nodup names' below =>
        obtain ⟨before, after, rfl⟩ := List.append_of_mem ((lookup_eq_some_iff nodup name k).1 listed)
        change Grows bytes _ (directory (putChild name _ _))
        rw [putChild_of_present nodup, listed]
        exact .inside before after name inner

end FileNode

/-! Following a path. -/

namespace Path

theorem exists_last_letter {path : String} {c : Char} (ending : path.toList.getLast? = some c)
    (apart : c ≠ '/') : ∃ front last, pieces path = front ++ [last] ∧
      last.toList.getLast? = some c := by
  obtain ⟨front, last, parts⟩ := exists_last path
  refine ⟨front, last, parts, ?_⟩
  have nonempty : last ≠ "" := by
    rintro rfl
    by_cases bare : front = []
    · subst front
      rw [eq_last_of_bare parts] at ending
      cases ending
    · rw [eq_last_of_front bare parts, toList_slash] at ending
      exact apart (by simpa using ending.symm)
  rw [← getLast?_ofPieces front nonempty, ← parts, ofPieces_pieces]
  exact ending

/-- A name is one piece more below a path, in the place of an empty last one. -/
theorem exists_pieces_opening {path : String} (nonempty : path ≠ "") {name : String}
    (bare : '/' ∉ name.toList) : ∃ ps, pieces (opening path ++ name) = ps ++ [name] ∧
      (pieces path = ps ∨ pieces path = ps ++ [""]) := by
  rw [opening]
  split
  · next closed =>
    obtain ⟨front, letters⟩ := List.getLast?_eq_some_iff.1 (closed.resolve_left nonempty)
    obtain rfl : path = String.ofList front ++ "/" := by
      rw [← String.toList_inj, letters, String.toList_append, String.toList_ofList]
      rfl
    refine ⟨pieces (String.ofList front), ?_, .inr ?_⟩
    · rw [pieces_slash, pieces_of_name bare]
    · have last := pieces_slash (String.ofList front) ""
      rwa [String.append_empty, pieces_empty] at last
  · refine ⟨pieces path, ?_, .inl rfl⟩
    rw [pieces_slash, pieces_of_name bare]

end Path

namespace FileTree

/-- A path that ends in a letter ends in the name of what it leads to. -/
theorem exists_last_name {t : FileTree} {path : String} {goal : List String}
    (ending : path.toList.getLast? = some 'd') (steps : t.follow path (pieces path) = .ok goal) :
    (t.root.below? goal).isSome ∧ ∃ mid name, goal = mid ++ [name] ∧
      name.toList.getLast? = some 'd' := by
  obtain ⟨front, last, parts, letter⟩ := exists_last_letter ending (by decide)
  rw [follow, parts, List.foldlM_append] at steps
  cases first : front.foldlM t.step (if isAbsolute path then [] else t.place) with
  | error f =>
    rw [first] at steps
    cases steps
  | ok mid =>
    rw [first] at steps
    obtain ⟨next, step, stays⟩ := steps_cons.1 steps
    cases stays
    obtain ⟨_, _, way⟩ := step_eq_ok_iff.1 step
    have named : ¬(last = "" ∨ last = ".") ∧ last ≠ ".." := by
      refine ⟨?_, ?_⟩
      · rintro (rfl | rfl) <;> cases letter
      · rintro rfl
        cases letter
    rw [if_neg named.1, if_neg named.2] at way
    obtain ⟨there, rfl⟩ := way
    exact ⟨there, mid, last, rfl, letter⟩

/-- One file more, at a place where nothing was. -/
structure Grown (t u : FileTree) (bytes : List UInt8) (around : List String) (last : String) : Prop
    where
  written : WrittenAt t u (around ++ [last]) bytes
  grows : t.root.Grows bytes u.root
  ending : last.toList.getLast? ≠ some 'd'

variable {t u : FileTree} {bytes : List UInt8} {around : List String} {last : String}

theorem grown_put (proper : t.root.Proper)
    (inside : ∃ entries, t.root.below? around = some (.directory entries))
    (absent : t.root.below? (around ++ [last]) = none) (ending : last.toList.getLast? ≠ some 'd') :
    Grown t (t.put (around ++ [last]) bytes) bytes around last where
  written := writtenAt_put t bytes inside (by simp [absent])
  grows := FileNode.grows_plant proper inside absent ending
  ending := ending

theorem find?_eq_follow {path : String} (nonempty : path ≠ "") (nul : '\x00' ∉ path.toList) :
    t.find? path = (t.follow path (pieces path)).toOption.bind t.root.below? := by
  rw [find?, locate, if_neg (by simp [nonempty, nul])]
  cases t.follow path (pieces path) <;> rfl

section Grown

variable (grown : Grown t u bytes around last)

include grown

theorem Grown.follow_eq {path : String} {ps goal : List String} (old : t.follow path ps = .ok goal) :
    u.follow path ps = .ok goal := by
  rw [follow, grown.written.start]
  exact grown.written.steps old

theorem Grown.follow_cases {path : String} {ps goal : List String}
    (new : u.follow path ps = .ok goal) :
    t.follow path ps = .ok goal ∨ goal = around ++ [last] := by
  rw [follow, grown.written.start] at new
  exact grown.written.new_steps new

theorem Grown.find? (path : String) : FileNode.Seen bytes (t.find? path) (u.find? path) := by
  by_cases bad : path = "" ∨ '\x00' ∈ path.toList
  · have missing : ∀ v : FileTree, v.find? path = none := by
      intro v
      rw [FileTree.find?, locate, if_pos (by simpa using bad)]
    rw [missing, missing]
    exact .none
  · rw [not_or] at bad
    rw [find?_eq_follow bad.1 bad.2, find?_eq_follow bad.1 bad.2]
    cases old : t.follow path (pieces path) with
    | ok goal =>
      rw [grown.follow_eq old]
      exact grown.grows.below? goal
    | error f =>
      cases new : u.follow path (pieces path) with
      | error g => exact .none
      | ok goal =>
        rcases grown.follow_cases new with same | rfl
        · cases old.symm.trans same
        · change FileNode.Seen bytes none (u.root.below? _)
          rw [grown.written.written]
          exact .new

theorem Grown.absolute (path : String) : u.absolute path = t.absolute path := by
  rw [FileTree.absolute, FileTree.absolute, placeText, placeText, grown.written.start]

theorem Grown.hasDirectory (path : String) : u.hasDirectory path = t.hasDirectory path := by
  have seen := grown.find? path
  unfold FileTree.hasDirectory
  generalize t.find? path = x, u.find? path = y at seen ⊢
  cases seen with
  | none => rfl
  | new => rfl
  | some grows => exact grows.isDirectory

/-- A path that ends as that of a schema does not lead to the new file. -/
theorem Grown.fileBytes? {path : String} (ending : path.toList.getLast? = some 'd') :
    u.fileBytes? path = t.fileBytes? path := by
  have seen := grown.find? path
  unfold FileTree.fileBytes?
  cases old : t.find? path with
  | some n =>
    rw [old] at seen
    generalize u.find? path = y at seen ⊢
    cases seen with
    | some grows => cases grows <;> rfl
  | none =>
    cases new : u.find? path with
    | none => rfl
    | some m =>
      obtain ⟨nonempty, nul, goal, steps, _⟩ := find?_eq_some new
      exfalso
      rcases grown.follow_cases steps with same | here
      · have there := (exists_last_name ending same).1
        rw [← find?_of_follow nonempty nul same, old] at there
        cases there
      · obtain ⟨_, mid, name, parts, letter⟩ := exists_last_name ending steps
        obtain ⟨_, rfl⟩ := List.append_inj' (here.symm.trans parts) rfl |>.imp_right List.singleton_inj.1
        exact grown.ending letter

end Grown

end FileTree

namespace Glob

open FileNode

theorem belowEntries_append (directoriesOnly : Bool) (xs ys : List (String × FileNode)) :
    belowEntries directoriesOnly (xs ++ ys) =
      belowEntries directoriesOnly xs ++ belowEntries directoriesOnly ys := by
  induction xs with
  | nil => rw [List.nil_append, belowEntries, List.nil_append]
  | cons e xs ih => rw [List.cons_append, belowEntries, belowEntries, ih, List.append_assoc]

variable {bytes : List UInt8} {n m : FileNode}

/-- Walks down through directories meet no new one. -/
theorem below_grown (grows : n.Grows bytes m) : below true m = below true n := by
  induction grows with
  | same => rfl
  | here entries ending =>
    rw [below, below, belowEntries_append, belowEntries, belowEntries, below]
    simp [isDirectory]
  | inside before after name grows ih =>
    rw [below, below, belowEntries_append, belowEntries_append, belowEntries, belowEntries, ih,
      grows.isDirectory]

/-- The new file fits no name of a directory, and not the ending of a schema. -/
theorem fitting_grown (grows : n.Grows bytes m) {directoriesOnly : Bool} {name : String}
    (blind : directoriesOnly = true ∨ name = "*.xsd") :
    fitting directoriesOnly name m = fitting directoriesOnly name n := by
  cases grows with
  | same => rfl
  | here entries ending =>
    rename_i new
    have unfit : (directoriesOnly = true ∨ Text.Wildcard.matchesName name new = false) := by
      refine blind.imp_right ?_
      rintro rfl
      rw [Bool.eq_false_iff]
      intro fits
      obtain ⟨front, parts⟩ := (Text.Wildcard.matchesName_star ".xsd".toList (by decide) new).1 fits
      rw [← parts] at ending
      exact ending (by simp)
    rw [fitting, fitting, List.filter_append]
    rcases unfit with rfl | unfit
    · simp [isDirectory]
    · simp [unfit]
  | inside before after key grows =>
    rw [fitting, fitting, List.filter_append, List.filter_append, List.map_append, List.map_append,
      List.filter_cons, List.filter_cons, grows.isDirectory]
    split <;> rfl

/-! The names of a pattern, one after the other. -/

theorem extendAll_eq_flatMap (t : FileTree) (names paths : List String) :
    extendAll t names paths = paths.flatMap fun p => extendAll t names [p] := by
  induction names generalizing paths with
  | nil =>
    simp only [extendAll]
    exact (List.flatMap_singleton' paths).symm
  | cons name names ih =>
    have one : ∀ p, extendAll t (name :: names) [p] =
        (extend t (!names.isEmpty) name p).flatMap fun q => extendAll t names [q] := by
      intro p
      rw [extendAll, List.flatMap_singleton, ih]
    simp only [one]
    rw [extendAll, ih, List.flatMap_assoc]

theorem nodeAt_eq (t : FileTree) {path : String} (nonempty : path ≠ "") :
    nodeAt t path = t.find? path := by rw [nodeAt, if_neg nonempty]

theorem follow_point {t : FileTree} {entries : List (String × FileNode)}
    (there : t.root.below? t.place = some (.directory entries)) :
    t.follow "." (pieces ".") = .ok t.place := by
  have point : pieces "." = ["."] := pieces_of_name (by decide)
  rw [FileTree.follow, point]
  refine FileTree.steps_cons.2 ⟨t.place, ?_, rfl⟩
  exact FileTree.step_eq_ok_iff.2 ⟨entries, there, by rw [if_pos (.inr rfl)]; rfl⟩

theorem isAbsolute_opening {path : String} (nonempty : path ≠ "") (name : String) :
    isAbsolute (opening path ++ name) = isAbsolute path := by
  rw [opening]
  split
  · exact isAbsolute_append nonempty name
  · rw [String.append_assoc, isAbsolute_append nonempty]

/-- The way to a name leads through the path in front of it. -/
theorem follow_opening {t : FileTree} {path name : String} (nonempty : path ≠ "")
    (bare : '/' ∉ name.toList) {goal : List String}
    (steps : t.follow (opening path ++ name) (pieces (opening path ++ name)) = .ok goal) :
    ∃ mid entries, t.follow path (pieces path) = .ok mid ∧
      t.root.below? mid = some (.directory entries) := by
  obtain ⟨ps, parts, own⟩ := exists_pieces_opening nonempty bare
  rw [FileTree.follow, isAbsolute_opening nonempty, parts, List.foldlM_append] at steps
  cases first : ps.foldlM t.step (if isAbsolute path then [] else t.place) with
  | error f =>
    rw [first] at steps
    cases steps
  | ok mid =>
    rw [first] at steps
    obtain ⟨_, step, _⟩ := FileTree.steps_cons.1 steps
    obtain ⟨entries, there, _⟩ := FileTree.step_eq_ok_iff.1 step
    refine ⟨mid, entries, ?_, there⟩
    rw [FileTree.follow]
    rcases own with own | own
    · rw [own, first]
    · rw [own, List.foldlM_append, first]
      exact FileTree.steps_cons.2 ⟨mid, FileTree.step_empty there, rfl⟩

/-- What is in front of a name that is there is a directory. -/
theorem exists_around {t : FileTree} {path name : String} (bare : '/' ∉ name.toList) {n : FileNode}
    (found : t.find? (Path.join path name) = some n) :
    ∃ entries, nodeAt t path = some (.directory entries) := by
  have relative : isAbsolute name = false := by
    have head : name.toList.head? ≠ some '/' := fun h => bare (List.mem_of_mem_head? h)
    simpa [isAbsolute] using head
  rw [join_eq path relative] at found
  obtain ⟨_, nul, goal, steps, _⟩ := FileTree.find?_eq_some found
  by_cases here : path = ""
  · subst here
    have text : opening "" ++ name = name := String.empty_append
    rw [text, FileTree.follow, relative, pieces_of_name bare] at steps
    obtain ⟨_, first, _⟩ := FileTree.steps_cons.1 steps
    obtain ⟨entries, there, _⟩ := FileTree.step_eq_ok_iff.1 first
    refine ⟨entries, ?_⟩
    rw [nodeAt, if_pos rfl, FileTree.find?_of_follow (by decide) (by decide) (follow_point there)]
    exact there
  · obtain ⟨mid, entries, whole, there⟩ := follow_opening here bare steps
    have unmarked : '\x00' ∉ path.toList := by
      intro member
      apply nul
      rw [opening]
      split <;> simp [String.toList_append, member]
    exact ⟨entries, by rw [nodeAt_eq t here, FileTree.find?_of_follow here unmarked whole, there]⟩

/-- Where nothing is, no name leads on. -/
theorem nodeAt_join_none {t : FileTree} {path name : String} (missing : nodeAt t path = none)
    (bare : '/' ∉ name.toList) : nodeAt t (Path.join path name) = none := by
  by_cases empty : Path.join path name = ""
  · have nowhere : path = "" := by
      rw [Path.join] at empty
      split_ifs at empty with rooted closed
      · subst empty
        cases rooted
      · exact (String.append_eq_empty_iff.1 empty).1
      · exact (String.append_eq_empty_iff.1 (String.append_eq_empty_iff.1 empty).1).1
    rw [empty, ← nowhere, missing]
  · rw [nodeAt_eq t empty, Option.eq_none_iff_forall_ne_some]
    intro n found
    obtain ⟨entries, there⟩ := exists_around bare found
    cases missing.symm.trans there

theorem nodeAt_extend_none {t : FileTree} {directoriesOnly : Bool} {name path : String}
    (missing : nodeAt t path = none) (bare : '/' ∉ name.toList) {q : String}
    (member : q ∈ extend t directoriesOnly name path) : nodeAt t q = none := by
  obtain ⟨w, found, rfl⟩ := List.mem_map.1 member
  refine nodeAt_join_none missing ?_
  rw [missing] at found
  split_ifs at found
  · rw [List.mem_singleton.1 found]
    decide
  · cases found
  · rwa [List.mem_singleton.1 found]
  · cases found

/-- A search that has left the tree finds no schema. -/
theorem extendAll_missing {t : FileTree} {names : List String}
    (bare : ∀ name ∈ names, '/' ∉ name.toList) {path : String} (missing : nodeAt t path = none) :
    extendAll t (names ++ ["*.xsd"]) [path] = [] := by
  induction names generalizing path with
  | nil =>
    rw [List.nil_append, extendAll, extendAll, List.flatMap_singleton, extend,
      if_neg (by decide), if_pos (by decide), missing]
    rfl
  | cons name names ih =>
    rw [List.cons_append, extendAll, List.flatMap_singleton, extendAll_eq_flatMap,
      List.flatMap_eq_nil_iff]
    intro q member
    exact ih (fun w later => bare w (List.mem_cons_of_mem name later))
      (nodeAt_extend_none missing (bare name List.mem_cons_self) member)

section Grown

variable {t u : FileTree} {around : List String} {last : String}
  (grown : t.Grown u bytes around last)

include grown

theorem nodeAt_grown (path : String) : Seen bytes (nodeAt t path) (nodeAt u path) := grown.find? _

theorem below_nodeAt (path : String) : ((nodeAt u path).map (below true)).getD [] =
    ((nodeAt t path).map (below true)).getD [] := by
  have seen := nodeAt_grown grown path
  generalize nodeAt t path = x, nodeAt u path = y at seen ⊢
  cases seen with
  | none => rfl
  | new => rfl
  | some grows => exact below_grown grows

theorem fitting_nodeAt {directoriesOnly : Bool} {name : String}
    (blind : directoriesOnly = true ∨ name = "*.xsd") (path : String) :
    ((nodeAt u path).map (fitting directoriesOnly name)).getD [] =
      ((nodeAt t path).map (fitting directoriesOnly name)).getD [] := by
  have seen := nodeAt_grown grown path
  generalize nodeAt t path = x, nodeAt u path = y at seen ⊢
  cases seen with
  | none => rfl
  | new => rfl
  | some grows => exact fitting_grown grows blind

/-- One name leads on as before, or to the new file and from nowhere. -/
theorem extend_grown (name path : String) : extend u true name path = extend t true name path ∨
    nodeAt t (Path.join path name) = none ∧ extend t true name path = [] ∧
      extend u true name path = [Path.join path name] := by
  unfold extend
  dsimp only
  by_cases deep : name = anyDepth
  · rw [if_pos deep, if_pos deep, below_nodeAt grown]
    exact .inl rfl
  · rw [if_neg deep, if_neg deep]
    by_cases signs : isPattern name = true
    · rw [if_pos signs, if_pos signs, fitting_nodeAt grown (.inl rfl)]
      exact .inl rfl
    · rw [if_neg signs, if_neg signs, FileTree.has, FileTree.has]
      have seen := grown.find? (Path.join path name)
      cases new : u.find? (Path.join path name) with
      | none =>
        rw [new] at seen
        generalize t.find? (Path.join path name) = x at seen ⊢
        cases seen
        exact .inl rfl
      | some m =>
        have nonempty := (FileTree.find?_eq_some new).1
        rw [nodeAt_eq t nonempty]
        rw [new] at seen
        generalize t.find? (Path.join path name) = x at seen ⊢
        cases seen with
        | new => exact .inr ⟨rfl, rfl, rfl⟩
        | some grows => exact .inl rfl

/-- The same schemas are found, from each place. -/
theorem extendAll_grown {names : List String} (bare : ∀ name ∈ names, '/' ∉ name.toList)
    (path : String) :
    extendAll u (names ++ ["*.xsd"]) [path] = extendAll t (names ++ ["*.xsd"]) [path] := by
  induction names generalizing path with
  | nil =>
    have last : ∀ v : FileTree, extendAll v ([] ++ ["*.xsd"]) [path] =
        (((nodeAt v path).map (fitting false "*.xsd")).getD []).map (Path.join path) := by
      intro v
      rw [List.nil_append, extendAll, extendAll, List.flatMap_singleton, extend,
        if_neg (by decide), if_pos (by decide)]
      rfl
    rw [last, last, fitting_nodeAt grown (.inr rfl)]
  | cons name names ih =>
    have inner : ∀ w ∈ names, '/' ∉ w.toList := fun w member => bare w (List.mem_cons_of_mem name member)
    have more : (!(names ++ ["*.xsd"]).isEmpty) = true := by simp
    rw [List.cons_append, extendAll, extendAll, List.flatMap_singleton, List.flatMap_singleton,
      extendAll_eq_flatMap, extendAll_eq_flatMap t, more]
    simp only [ih inner]
    rcases extend_grown grown name path with same | ⟨missing, gone, found⟩
    · rw [same]
    · rw [gone, found, List.flatMap_singleton, List.flatMap_nil, extendAll_missing inner missing]

end Grown

/-- What a search finds ends as a schema does. -/
theorem ending_of_mem {t : FileTree} {names paths : List String} {q : String}
    (member : q ∈ extendAll t (names ++ ["*.xsd"]) paths) : q.toList.getLast? = some 'd' := by
  induction names generalizing paths with
  | nil =>
    rw [List.nil_append, extendAll, extendAll, List.mem_flatMap] at member
    obtain ⟨path, _, found⟩ := member
    rw [extend, if_neg (by decide), if_pos (by decide)] at found
    obtain ⟨name, fits, rfl⟩ := List.mem_map.1 found
    have ending : ".xsd".toList <:+ name.toList := by
      rw [← Text.Wildcard.matchesName_star _ (by decide)]
      cases here : nodeAt t path with
      | none =>
        rw [here] at fits
        cases fits
      | some n =>
        rw [here] at fits
        cases n with
        | file bs => cases fits
        | directory entries =>
          obtain ⟨e, kept, rfl⟩ := List.mem_map.1 fits
          exact (Bool.and_eq_true_iff.1 (List.mem_filter.1 kept).2).2
    have letter : name.toList.getLast? = some 'd' := by
      obtain ⟨front, letters⟩ := ending
      simp [← letters]
    have some : name.toList ≠ [] := by
      intro empty
      simp [empty] at letter
    rw [Path.join]
    split_ifs
    · exact letter
    · rw [String.toList_append, List.getLast?_append_of_ne_nil _ some, letter]
    · rw [String.toList_append, List.getLast?_append_of_ne_nil _ some, letter]
  | cons name names ih => exact ih member

theorem drop_length_takeWhile {α : Type} (p : α → Bool) (xs : List α) :
    xs.drop (xs.takeWhile p).length = xs.dropWhile p := by
  induction xs with
  | nil => rfl
  | cons x xs ih =>
    rw [List.takeWhile_cons, List.dropWhile_cons]
    split
    · rw [List.length_cons, List.drop_succ_cons, ih]
    · rfl

/-- The last name of the pattern for schemas is their ending. -/
theorem exists_pattern_names (d : String) : ∃ names,
    (literalPart (SchemaSet.pattern d)).2 = names ++ ["*.xsd"] ∧
      ∀ name ∈ names, '/' ∉ name.toList := by
  have long : opening d ++ anyDepth ≠ "" := by
    intro empty
    exact absurd (String.append_eq_empty_iff.1 empty).2 (by decide)
  have whole : '/' ∉ "*.xsd".toList := by decide
  obtain ⟨ps, parts, _⟩ := exists_pieces_opening long whole
  have text : SchemaSet.pattern d = opening (opening d ++ anyDepth) ++ "*.xsd" := by
    rw [SchemaSet.pattern, join_eq d (by decide), join_eq _ (by decide)]
  rw [← text] at parts
  have last : ["*.xsd"].dropWhile (!isPattern ·) = ["*.xsd"] := by decide
  have rest : (ps ++ ["*.xsd"]).dropWhile (!isPattern ·) =
      ps.dropWhile (!isPattern ·) ++ ["*.xsd"] := by
    rw [List.dropWhile_append, last]
    split
    · next none => rw [List.isEmpty_iff.1 none, List.nil_append]
    · rfl
  refine ⟨(ps.dropWhile (!isPattern ·)).filter (· != ""), ?_, ?_⟩
  · simp only [literalPart, parts, drop_length_takeWhile, rest, List.filter_append]
    rfl
  · intro name member
    have inside : name ∈ pieces (SchemaSet.pattern d) := by
      rw [parts]
      exact List.mem_append_left _ ((List.dropWhile_sublist _).subset (List.mem_of_mem_filter member))
    exact slash_not_mem_pieces inside

end Glob

namespace SchemaSet

/-- The schemas of a directory are the same with one file more. -/
theorem load_grown {t u : FileTree} {bytes : List UInt8} {around : List String} {last : String}
    (grown : t.Grown u bytes around last) (d : String) : load u d = load t d := by
  obtain ⟨names, parts, bare⟩ := Glob.exists_pattern_names d
  have found : ∀ v, Glob.find v (pattern d) =
      Glob.extendAll v (names ++ ["*.xsd"]) [(Glob.literalPart (pattern d)).1] := by
    intro v
    rw [← parts]
    rfl
  have same : paths u d = paths t d := by
    rw [paths, paths, found, found, Glob.extendAll_grown grown bare]
  have each : ∀ p ∈ paths t d, SchemaFile.load u p none (some d) = SchemaFile.load t p none (some d) := by
    intro p member
    rw [paths, List.mem_mergeSort, found] at member
    exact SchemaFile.load_of_bytes (grown.fileBytes? (Glob.ending_of_mem member)) grown.absolute _ _
  unfold load
  rw [grown.hasDirectory, same, mapM_congr each]

end SchemaSet

end NamespacePlan
