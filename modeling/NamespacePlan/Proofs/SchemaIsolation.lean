import NamespacePlan.Proofs.SchemaLoading

/-! What lies outside a directory has no part in its schemas, as long as the name of the directory is
no pattern: the result is that of the tree below it, and its places lie there. A name with a sign of a
pattern leads the search to other directories that fit it. -/
namespace NamespacePlan

open NamespacePlan.Path

/-! The place of a path below a directory. -/

namespace Path

theorem rooted_cases {path : String} (rooted : isAbsolute path = true) :
    root path = "/" ∨ root path = "//" := by
  unfold root
  split
  · exact Or.inl rfl
  · exact Or.inr rfl
  · exact Or.inl rfl
  · rename_i other
    unfold isAbsolute at rooted
    cases letters : path.toList with
    | nil => simp [letters] at rooted
    | cons c cs =>
      obtain rfl : c = '/' := by simpa [letters] using rooted
      exact absurd letters (other cs)

theorem join_rooted {r : String} (rooted : r = "/" ∨ r = "//") {p : String}
    (relative : isAbsolute p = false) : join r p = r ++ p := by
  rw [join_eq r relative]
  rcases rooted with rfl | rfl
  · rfl
  · rfl

/-- Names behind a written path are joined to it. -/
theorem join_write {r : String} (rooted : r = "/" ∨ r = "//") {ms ns : List String}
    (front : ∀ m ∈ ms, m ≠ "" ∧ '/' ∉ m.toList) (more : ns ≠ []) (proper : ∀ n ∈ ns, IsName n) :
    join (write r ms) (ofPieces ns) = write r (ms ++ ns) := by
  have relative := isAbsolute_ofPieces proper
  have written : ∀ ks : List String, write r ks = r ++ ofPieces ks := by
    intro ks
    unfold write
    have nonempty : r ++ ofPieces ks ≠ "" := by
      intro empty
      have letters := congrArg String.toList empty
      rw [String.toList_append] at letters
      rcases rooted with rfl | rfl <;> simp at letters
    simp only [nonempty, if_false]
  rw [written, written]
  rcases List.eq_nil_or_concat' ms with rfl | ⟨ks, m, rfl⟩
  · have nothing : r ++ ofPieces [] = r := String.append_empty
    rw [nothing, List.nil_append, join_rooted rooted relative]
  · obtain ⟨nonempty, slash⟩ := front m (by simp)
    have letters : m.toList ≠ [] := fun h => nonempty (String.toList_inj.1 h)
    have last : (r ++ ofPieces (ks ++ [m])).toList.getLast? = m.toList.getLast? := by
      have inner := getLast?_ofPieces ks nonempty
      rw [String.toList_append, List.getLast?_append_of_ne_nil, inner]
      intro empty
      rw [empty] at inner
      exact letters (List.getLast?_eq_none_iff.1 inner.symm)
    have longer : opening (r ++ ofPieces (ks ++ [m])) = r ++ ofPieces (ks ++ [m]) ++ "/" := by
      apply if_neg
      rintro (empty | closed)
      · rw [empty] at last
        exact letters (List.getLast?_eq_none_iff.1 last.symm)
      · exact slash (List.mem_of_getLast? (last ▸ closed))
    rw [join_eq _ relative, longer, ofPieces_append (by simp) more]
    simp only [String.append_assoc]

theorem mem_collapse {rooted : Bool} {ns : List String} {n : String} (member : n ∈ collapse rooted ns) :
    n ∈ ns := by
  have all : ∀ k ∈ (collapse rooted ns).reverse, k ∈ ns := by
    rw [collapse, List.reverse_reverse]
    refine List.foldlRecOn (motive := fun up : List String => ∀ k ∈ up, k ∈ ns) ns _ (by simp) ?_
    intro up inside k own x h
    split at h
    · split at h
      · split at h
        · cases h
        · exact List.mem_singleton.1 h ▸ own
      · split at h
        · rcases List.mem_cons.1 h with rfl | old
          · exact own
          · exact inside x old
        · exact inside x (List.mem_cons_of_mem _ h)
    · rcases List.mem_cons.1 h with rfl | old
      · exact own
      · exact inside x old
  exact all n (List.mem_reverse.2 member)

/-- The absolute path of a name below a path is the name joined to that of the path. -/
theorem normal_below {b : String} {k : Nat} (front : root (b ++ slashes k) = root (b ++ "/"))
    (rooted : isAbsolute (b ++ slashes k) = true)
    (rooted' : isAbsolute (b ++ "/") = true) {ns : List String} (more : ns ≠ [])
    (proper : ∀ n ∈ ns, IsName n) :
    normal (b ++ "/" ++ ofPieces ns) = join (normal (b ++ slashes k)) (ofPieces ns) := by
  rw [normal_ofPieces b more proper, normal, names_slashes, front, rooted, rooted',
    join_write (rooted_cases rooted') _ more proper]
  intro m member
  have listed := List.mem_filter.1 (mem_collapse member)
  have nonempty : m ≠ "" := by
    have kept := listed.2
    simp only [Bool.and_eq_true, bne_iff_ne] at kept
    exact kept.1
  exact ⟨nonempty, slash_not_mem_pieces listed.1⟩

end Path

namespace FileTree

/-- The absolute path of a relative one begins at the place of the tree. -/
def base (t : FileTree) (path : String) : String :=
  if isAbsolute path then "" else opening t.placeText

theorem absolute_eq (t : FileTree) (path : String) : t.absolute path = normal (t.base path ++ path) := by
  rw [FileTree.absolute, Path.absolute, base]
  cases rooted : isAbsolute path with
  | true => simp [join, rooted]
  | false => simp [join_eq _ rooted]

theorem isAbsolute_base (t : FileTree) (path : String) :
    isAbsolute (t.base path ++ path) = true := by
  unfold base
  split
  · rename_i rooted
    simpa using rooted
  · have place : isAbsolute (opening t.placeText) = true := by
      unfold opening
      split <;> simp [placeText, isAbsolute, String.toList_append]
    have nonempty : opening t.placeText ≠ "" := by
      intro empty
      rw [empty] at place
      cases place
    rw [isAbsolute_append nonempty]
    exact place

end FileTree

namespace SchemaSet

/-- What is found below a directory has its place below the place of the directory. -/
theorem absolute_under (t : FileTree) {d : String} (nonempty : d ≠ "") {ns : List String}
    (more : ns ≠ []) (proper : ∀ n ∈ ns, IsName n) :
    t.absolute (under d (ofPieces ns)) = join (t.absolute d) (ofPieces ns) := by
  have relative := isAbsolute_ofPieces proper
  obtain ⟨core, k, rfl, last, kept⟩ := Glob.exists_core d
  rw [under, join_eq _ relative, kept, t.absolute_eq, t.absolute_eq]
  by_cases empty : core = ""
  · -- nothing but slashes
    subst empty
    obtain ⟨m, rfl⟩ : ∃ m, k = m + 1 := by
      cases k with
      | zero => exact absurd rfl nonempty
      | succ m => exact ⟨m, rfl⟩
    have start : ∀ p, isAbsolute (slashes (m + 1) ++ p) = true := by
      intro p
      simp [isAbsolute, slashes, String.toList_append, List.replicate_succ]
    have whole : isAbsolute (slashes (m + 1)) = true := by simpa using start ""
    have closed : opening (slashes (m + 1)) = slashes (m + 1) := by
      apply if_pos
      right
      rw [slashes, String.toList_ofList, List.replicate_succ', List.getLast?_concat]
    have base : ∀ p, isAbsolute p = true → t.base p = "" := fun p h => if_pos h
    rw [if_pos rfl, String.empty_append, closed, base _ (start _), base _ whole, String.empty_append,
      String.empty_append, slashes_succ]
    rw [slashes_succ] at whole
    exact normal_below (k := 1) rfl whole whole more proper
  · have longer : opening core = core ++ "/" := if_neg (not_or.2 ⟨empty, last⟩)
    have base : ∀ p, t.base (core ++ p) = t.base core := by
      intro p
      rw [FileTree.base, FileTree.base, isAbsolute_append empty]
    rw [if_neg empty, longer, String.append_assoc, base, base, ← String.append_assoc,
      ← String.append_assoc, ← String.append_assoc]
    have more' : t.base core ++ core ≠ "" := by
      intro h
      have letters := congrArg String.toList h
      rw [String.toList_append] at letters
      exact empty (String.toList_inj.1 (List.append_eq_nil_iff.1 letters).2)
    have open_end : (t.base core ++ core).toList.getLast? ≠ some '/' := by
      have letters : core.toList ≠ [] := fun h => empty (String.toList_inj.1 h)
      rwa [String.toList_append, List.getLast?_append_of_ne_nil _ letters]
    have whole := t.isAbsolute_base core
    apply normal_below _ _ _ more proper
    · exact (root_slashes more' open_end k).trans (root_slashes more' open_end 1).symm
    · rw [isAbsolute_append more', whole]
    · rw [isAbsolute_append more', whole]

section Below

variable {t : FileTree} {d : String} {n : FileNode} (found : t.find? d = some n)
  (kind : n.isDirectory = true)

include found kind

theorem find?_under {names : List String} (proper : ∀ name ∈ names, IsName name) {k : FileNode}
    (below : n.below? names = some k) : t.find? (under d (ofPieces names)) = some k := by
  obtain ⟨q, m, _, whole, first, _, rooted, _⟩ :=
    Glob.exists_opening (FileTree.find?_eq_some found).1
  have text : under d (ofPieces names) = q ++ slashes 0 ++ "/" ++ ofPieces names := by
    rw [under, join_eq _ (isAbsolute_ofPieces proper), first]
    exact congrArg (· ++ "/" ++ ofPieces names) String.append_empty.symm
  rw [text]
  exact FileTree.find?_below (whole ▸ found) kind (whole ▸ rooted) 0 proper below

/-- The place of every schema that is loaded lies below that of the directory. -/
theorem location_below (proper : n.Proper) (plain : Glob.isPattern d = false) {xs : List Descriptor}
    (loaded : (load t d).outcome = .ok xs) {x : Descriptor} (member : x ∈ xs) :
    ∃ names, names ≠ [] ∧ (∀ name ∈ names, IsName name) ∧
      x.location = some (join (t.absolute d) (ofPieces names)) := by
  have there : t.hasDirectory d = true := by
    rw [FileTree.hasDirectory, found]
    exact kind
  rw [load_outcome found proper kind there plain, mapM_eq_ok_iff] at loaded
  have each := (List.forall₂_and_left _ xs).2 ⟨fun p h => (fits_iff found proper kind p).2
    (List.mem_mergeSort.1 h), loaded⟩
  obtain ⟨p, fits, own⟩ := exists_of_forall₂ each.flip member
  obtain ⟨_, names, here, leads, rfl⟩ := fits
  cases found.symm.trans here
  obtain ⟨more, named⟩ := leads.proper proper
  refine ⟨names, more, named, ?_⟩
  rw [SchemaFile.location_of_load own,
    absolute_under t (FileTree.find?_eq_some found).1 more named]

end Below

theorem fileBytes?_rearranged {t u : FileTree} {path : String} {k l : FileNode}
    (left : t.find? path = some k) (right : u.find? path = some l) (alike : k.Rearranged l) :
    u.fileBytes? path = t.fileBytes? path := by
  rw [FileTree.fileBytes?, FileTree.fileBytes?, left, right]
  cases alike <;> rfl

/-- A directory whose name holds no sign of a pattern is loaded alike from any two trees that have the
same files below it, and all places that are found lie below its own. -/
theorem load_isolated {t u : FileTree} {d : String} {n m : FileNode} (place : u.place = t.place)
    (found : t.find? d = some n) (found' : u.find? d = some m) (same : n.Rearranged m)
    (proper : n.Proper) (kind : n.isDirectory = true) (plain : Glob.isPattern d = false) :
    load u d = load t d ∧ ∀ xs, (load t d).outcome = .ok xs → ∀ x ∈ xs,
      ∃ names, names ≠ [] ∧ (∀ name ∈ names, IsName name) ∧
        x.location = some (join (t.absolute d) (ofPieces names)) := by
  have proper' := same.proper proper
  have kind' : m.isDirectory = true := (isDirectory_rearranged same).trans kind
  have there : t.hasDirectory d = true ∧ u.hasDirectory d = true := by
    rw [FileTree.hasDirectory, FileTree.hasDirectory, found, found']
    exact ⟨kind, kind'⟩
  have found_paths : paths u d = paths t d := by
    rw [paths_eq found proper kind plain, paths_eq found' proper' kind' plain,
      ways_rearranged same proper kind]
  have each : ∀ p ∈ paths t d, SchemaFile.load u p none (some d) =
      SchemaFile.load t p none (some d) := by
    rw [paths_eq found proper kind plain]
    intro p member
    obtain ⟨w, way, rfl⟩ := List.mem_map.1 member
    obtain ⟨_, names, here, leads, rfl⟩ :=
      (fits_iff found proper kind w).2 (List.mem_mergeSort.1 way)
    cases found.symm.trans here
    have named := (leads.proper proper).2
    have absolute : ∀ path, u.absolute path = t.absolute path := by
      intro path
      simp only [FileTree.absolute, FileTree.placeText, place]
    apply SchemaFile.load_of_bytes _ absolute
    obtain ⟨k, reached⟩ := Option.isSome_iff_exists.1 leads.found
    rcases rel_cases (same.below? proper names) with ⟨missing, _⟩ | ⟨_, l, left, right, alike⟩
    · cases missing.symm.trans reached
    · exact fileBytes?_rearranged (find?_under found kind named left)
        (find?_under found' kind' named right) alike
  refine ⟨?_, fun xs loaded x member => location_below found kind proper plain loaded member⟩
  simp only [load, there.1, there.2, found_paths]
  rw [mapM_congr each]

/-- The tree `nested` with other files outside the directory `s`, whose entries are listed in another
order. -/
def resettled : FileTree where
  root := .directory [("sub.xsd", .file []), ("s", .directory [
    ("sub.xsd", .file "<a targetNamespace='urn:a'/>".toUTF8.toList),
    (".c.xsd", .file []),
    ("sub", .directory [("b.xsd", .file "<b targetNamespace='urn:b'/>".toUTF8.toList)])])]
  place := []

theorem resettled_loads_nested : ∃ n m, nested.find? "s" = some n ∧ resettled.find? "s" = some m ∧
    n.Rearranged m ∧ n.Proper ∧ load resettled "s" = load nested "s" ∧
    ∀ xs, (load nested "s").outcome = .ok xs → ∀ x ∈ xs, ∃ names, names ≠ [] ∧
      x.location = some (join "/s" (ofPieces names)) := by
  obtain ⟨n, found, proper, kind⟩ := exists_directory (d := "s") proper_nested (by decide)
  cases found
  have same : FileNode.Rearranged (.directory [
      ("sub", .directory [("b.xsd", .file "<b targetNamespace='urn:b'/>".toUTF8.toList)]),
      ("sub.xsd", .file "<a targetNamespace='urn:a'/>".toUTF8.toList), (".c.xsd", .file [])])
    (.directory [("sub.xsd", .file "<a targetNamespace='urn:a'/>".toUTF8.toList),
      (".c.xsd", .file []),
      ("sub", .directory [("b.xsd", .file "<b targetNamespace='urn:b'/>".toUTF8.toList)])]) := by
    refine .directory (by decide) ?_
    have inner : FileNode.Rearranged
        (.directory [("b.xsd", .file "<b targetNamespace='urn:b'/>".toUTF8.toList)])
        (.directory [("b.xsd", .file "<b targetNamespace='urn:b'/>".toUTF8.toList)]) := by
      refine .directory (by decide) ?_
      simp only [List.forall_mem_cons, List.not_mem_nil, false_implies, implies_true, and_true,
        FileNode.Rearranged.file]
    simp only [List.forall_mem_cons, List.not_mem_nil, false_implies, implies_true, and_true,
      String.reduceEq, inner, FileNode.Rearranged.file, and_self]
  have there : nested.absolute "s" = "/s" := by decide
  obtain ⟨agree, places⟩ := load_isolated (t := nested) (u := resettled) (d := "s") rfl rfl rfl same
    proper kind (by decide)
  refine ⟨_, _, rfl, rfl, same, proper, agree, fun xs loaded x member => ?_⟩
  obtain ⟨names, more, _, location⟩ := places xs loaded x member
  exact ⟨names, more, there ▸ location⟩

/-- An empty directory whose name is a pattern, alone and beside a directory that fits it. -/
def starred : FileTree where
  root := .directory [("x*", .directory [])]
  place := []

def starredBeside : FileTree where
  root := .directory [("x*", .directory []), ("xy", .directory [("a.xsd", .file
    [60, 97, 32, 116, 97, 114, 103, 101, 116, 78, 97, 109, 101, 115, 112, 97, 99, 101, 61, 39, 117,
     114, 110, 58, 97, 39, 47, 62])])]
  place := []

/-- The name of a directory is a pattern for the search, which then leaves the directory. -/
theorem pattern_name_not_isolated : starred.find? "x*" = some (.directory []) ∧
    starredBeside.find? "x*" = some (.directory []) ∧ starredBeside.place = starred.place ∧
    load starredBeside "x*" ≠ load starred "x*" ∧
    ∃ x, (load starredBeside "x*").outcome = .ok [x] ∧ x.location = some "/xy/a.xsd" ∧
      starredBeside.absolute "x*" = "/x*" := by
  have search : ∀ t, Glob.find t (pattern "x*") =
      Glob.extendAll t ["x*", "**", "*.xsd"] [""] := by
    have literal : Glob.literalPart (pattern "x*") = ("", ["x*", "**", "*.xsd"]) := by decide
    intro t
    simp only [Glob.find, literal]
  have alone : (load starred "x*").outcome = .ok [] := by
    have nothing : Glob.extendAll starred ["x*", "**", "*.xsd"] [""] = [] := by decide
    rw [outcome_load (by decide), paths, search, nothing, List.mergeSort_nil]
    rfl
  have outside : (load starredBeside "x*").outcome = .ok
      [⟨"urn:a", .empty, some false, some "/xy/a.xsd"⟩] := by
    have one : Glob.extendAll starredBeside ["x*", "**", "*.xsd"] [""] = ["xy/a.xsd"] := by decide
    have loaded : SchemaFile.load starredBeside "xy/a.xsd" none (some "x*") =
        .ok ⟨"urn:a", .empty, some false, some "/xy/a.xsd"⟩ := rfl
    rw [outcome_load (by decide), paths, search, one, List.mergeSort_singleton,
      List.mapM_cons, loaded]
    rfl
  refine ⟨rfl, rfl, rfl, ?_, _, outside, rfl, by decide⟩
  intro same
  rw [same, alone] at outside
  cases outside

end SchemaSet

end NamespacePlan
