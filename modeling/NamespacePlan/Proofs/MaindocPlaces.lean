import NamespacePlan.Proofs.SchemaIsolation

/-! Where main documents lie. Below a base only the names behind it count, however the base is spelled
and wherever the work is done; without a base the directory around a file counts alone. -/
namespace NamespacePlan

namespace Path

/-- A component of a path that leads down to its name. -/
structure IsComponent (n : String) : Prop where
  nonempty : n ≠ ""
  here : n ≠ "."
  up : n ≠ ".."
  slash : '/' ∉ n.toList

instance (n : String) : Decidable (IsComponent n) :=
  decidable_of_iff (n ≠ "" ∧ n ≠ "." ∧ n ≠ ".." ∧ '/' ∉ n.toList)
    ⟨fun ⟨nonempty, here, up, slash⟩ => ⟨nonempty, here, up, slash⟩,
      fun h => ⟨h.nonempty, h.here, h.up, h.slash⟩⟩

/-- The directory that an absolute path lies in. -/
def above (path : String) : String := write (root path) (names path).dropLast

/-! Joined paths. -/

theorem isAbsolute_iff {path : String} :
    isAbsolute path = true ↔ ∃ cs, path.toList = '/' :: cs := by
  rw [isAbsolute, decide_eq_true_iff, List.head?_eq_some_iff]

theorem isAbsolute_opening {a : String} (rooted : isAbsolute a = true) (b : String) :
    isAbsolute (opening a ++ b) = true := by
  obtain ⟨cs, letters⟩ := isAbsolute_iff.1 rooted
  rw [opening, isAbsolute_iff]
  split
  · exact ⟨cs ++ b.toList, by simp [String.toList_append, letters]⟩
  · exact ⟨cs ++ '/' :: b.toList, by simp [String.toList_append, letters]⟩

theorem isAbsolute_join {a : String} (rooted : isAbsolute a = true) (b : String) :
    isAbsolute (join a b) = true := by
  by_cases absolute : isAbsolute b = true
  · rw [join, if_pos absolute]
    exact absolute
  · rw [join_eq a (Bool.eq_false_iff.2 absolute)]
    exact isAbsolute_opening rooted b

theorem join_of_isAbsolute (a : String) {b : String} (rooted : isAbsolute b = true) :
    join a b = b := if_pos rooted

theorem join_assoc (a b : String) {c : String} (relative : isAbsolute c = false) :
    join a (join b c) = join (join a b) c := by
  by_cases rooted : isAbsolute b = true
  · rw [join_of_isAbsolute a rooted, join_of_isAbsolute a (isAbsolute_join rooted c)]
  · exact join_join a (Bool.eq_false_iff.2 rooted) relative

theorem names_join (a : String) {p : String} (relative : isAbsolute p = false) :
    names (join a p) = names a ++ names p := by
  rw [join_eq a relative, opening]
  split
  · next closed =>
    rcases closed with rfl | last
    · rw [String.empty_append]
      rfl
    · obtain ⟨cs, letters⟩ := List.getLast?_eq_some_iff.1 last
      obtain rfl : a = String.ofList cs ++ "/" ++ "" := by
        apply String.toList_inj.1
        rw [letters, toList_slash, String.toList_ofList]
        rfl
      have trailing : names "" = [] := rfl
      rw [names_slash, trailing, List.append_nil, String.append_empty, names_slash]
  · exact names_slash a p

/-! Absolute paths. -/

theorem steps_names {path n : String} (member : n ∈ names path) : n ≠ "" ∧ n ≠ "." ∧ '/' ∉ n.toList := by
  obtain ⟨piece, kept⟩ := List.mem_filter.1 member
  simp only [Bool.and_eq_true, bne_iff_ne] at kept
  exact ⟨kept.1, kept.2, slash_not_mem_pieces piece⟩

theorem names_normal {path : String} (rooted : isAbsolute path = true) :
    names (normal path) = collapse true (names path) := by
  rw [normal, rooted]
  exact (parts_write (root_cases path) fun n member => steps_names (mem_collapse member)).2

/-- At the root all steps up are taken back. -/
theorem up_not_mem_collapse (ns : List String) : ".." ∉ collapse true ns := by
  rw [collapse, List.mem_reverse]
  refine List.foldlRecOn (motive := fun up : List String => ".." ∉ up) ns _ (by simp) ?_
  intro up below n _
  split
  · split
    · simp
    · next u rest =>
      have other : ¬u = ".." := fun h => below (h ▸ List.mem_cons_self)
      rw [if_neg other]
      exact fun h => below (List.mem_cons_of_mem u h)
  · next down =>
    exact List.not_mem_cons_of_ne_of_not_mem (Ne.symm down) below

theorem collapse_of_down {ns : List String} (down : ".." ∉ ns) : collapse true ns = ns := by
  have behind := collapse_append true [] fun n member (up : n = "..") => down (up ▸ member)
  exact behind

theorem names_above {path : String} : names (above path) = (names path).dropLast :=
  (parts_write (root_cases path) fun _ member => steps_names (List.dropLast_subset _ member)).2

theorem isAbsolute_write {r : String} (top : r = "/" ∨ r = "//") (ns : List String) :
    isAbsolute (write r ns) = true := by
  have letters : ∃ cs, (r ++ ofPieces ns).toList = '/' :: cs := by
    rcases top with rfl | rfl
    · exact ⟨_, String.toList_append⟩
    · exact ⟨_, String.toList_append⟩
  obtain ⟨cs, letters⟩ := letters
  have nonempty : r ++ ofPieces ns ≠ "" := fun empty => by simp [empty] at letters
  rw [write, if_neg nonempty]
  exact isAbsolute_iff.2 ⟨cs, letters⟩

theorem isAbsolute_normal {path : String} (rooted : isAbsolute path = true) :
    isAbsolute (normal path) = true := isAbsolute_write (rooted_cases rooted) _

theorem isAbsolute_above {path : String} (rooted : isAbsolute path = true) :
    isAbsolute (above path) = true := isAbsolute_write (rooted_cases rooted) _

theorem isAbsolute_ofComponents {ns : List String} (components : ∀ n ∈ ns, IsComponent n) :
    isAbsolute (ofPieces ns) = false := by
  cases ns with
  | nil => rfl
  | cons n ns =>
    have first := components n List.mem_cons_self
    obtain ⟨c, cs, letters, other⟩ := head?_ofPieces_cons ns first.nonempty first.slash
    simp [isAbsolute, letters, other]

/-! The way from one place to another. -/

theorem dropShared_append (xs ys : List String) : dropShared xs (xs ++ ys) = ([], ys) := by
  induction xs with
  | nil => cases ys <;> rfl
  | cons x xs ih => rw [List.cons_append, dropShared, if_pos rfl, ih]

theorem stepsBetween_below {start goal : String} {ns : List String}
    (below : names goal = names start ++ ns) : stepsBetween start goal = ns := by
  rw [stepsBetween, below, dropShared_append]
  rfl

end Path

namespace FileTree

open NamespacePlan.Path

theorem isAbsolute_placeText (t : FileTree) : isAbsolute t.placeText = true :=
  isAbsolute_iff.2 ⟨(ofPieces t.place).toList, String.toList_append⟩

theorem names_absolute (t : FileTree) (path : String) :
    names (t.absolute path) = collapse true (names (join t.placeText path)) :=
  names_normal (isAbsolute_join t.isAbsolute_placeText path)

theorem isAbsolute_absolute (t : FileTree) (path : String) : isAbsolute (t.absolute path) = true :=
  isAbsolute_normal (isAbsolute_join t.isAbsolute_placeText path)

theorem names_absolute_join (t : FileTree) (b : String) {p : String}
    (relative : isAbsolute p = false) (down : ".." ∉ names p) :
    names (t.absolute (join b p)) = names (t.absolute b) ++ names p := by
  rw [names_absolute, names_absolute, join_assoc _ _ relative, names_join _ relative,
    collapse_append true _ fun n member up => down (up ▸ member)]

theorem names_absolute_of_isAbsolute (t : FileTree) {path : String} (rooted : isAbsolute path = true)
    (down : ".." ∉ names path) : names (t.absolute path) = names path := by
  rw [names_absolute, join_of_isAbsolute _ rooted, collapse_of_down down]

end FileTree

namespace SchemaFile

open NamespacePlan.Path

/-- What counts of a file below a base are the directories on the way from there. -/
theorem folders_join (t : FileTree) (b : String) {p : String} (relative : isAbsolute p = false)
    (down : ".." ∉ names p) : folders t (join b p) (some b) = (names p).dropLast :=
  congrArg List.dropLast (stepsBetween_below (t.names_absolute_join b relative down))

theorem isMaindoc_iff (t : FileTree) (path target : String) (base : Option String) :
    isMaindoc t path target base = true ↔
      target = baseDocument ∨ "maindoc" ∈ folders t path base := by
  rw [isMaindoc, Bool.or_eq_true, beq_iff_eq, List.contains_iff_mem]
  rfl

/-- Without a base the directory around a file counts, as it does below the directory around that. -/
theorem folders_none (t : FileTree) {path : String} (deep : 2 ≤ (names (t.absolute path)).length) :
    folders t path none = folders t path (some (above (above (t.absolute path)))) := by
  have rooted := isAbsolute_above (isAbsolute_above (t.isAbsolute_absolute path))
  obtain ⟨ks, file, whole⟩ := List.eq_nil_or_concat' (names (t.absolute path)) |>.resolve_left
    (List.ne_nil_of_length_pos (by omega))
  obtain ⟨ms, folder, rfl⟩ := List.eq_nil_or_concat' ks |>.resolve_left (by
    rintro rfl
    simp [whole] at deep)
  have outer : names (above (above (t.absolute path))) = ms := by
    rw [names_above, names_above, whole, List.dropLast_concat, List.dropLast_concat]
  have down : ".." ∉ ms := by
    have none := up_not_mem_collapse (names (join t.placeText path))
    rw [← t.names_absolute, whole] at none
    exact fun member => none (List.mem_append_left _ (List.mem_append_left _ member))
  have base := t.names_absolute_of_isAbsolute rooted (outer ▸ down)
  have below : names (t.absolute path) =
      names (t.absolute (above (above (t.absolute path)))) ++ [folder, file] := by
    rw [base, outer, whole, List.append_assoc]
    rfl
  have parent : parentName (t.absolute path) = folder := by
    rw [parentName, whole, List.dropLast_concat, List.getLast?_concat]
    rfl
  rw [folders, folders, parent, stepsBetween_below below]
  rfl

/-- Whether a file below a base is a main document is told by the directories between them, whatever
place the work is done in and however the base is spelled; without a base it is told as with the one
around the directory of the file. -/
theorem isMaindoc_placed (t : FileTree) (target : String) :
    (∀ b ns, (∀ n ∈ ns, IsComponent n) →
      (isMaindoc t (join b (ofPieces ns)) target (some b) = true ↔
        target = baseDocument ∨ "maindoc" ∈ ns.dropLast)) ∧
    ∀ path, 2 ≤ (names (t.absolute path)).length →
      isMaindoc t path target none =
        isMaindoc t path target (some (above (above (t.absolute path)))) := by
  constructor
  · intro b ns components
    have own := names_ofSteps fun n member =>
      ⟨(components n member).nonempty, (components n member).here, (components n member).slash⟩
    have down : ".." ∉ names (ofPieces ns) := by
      rw [own]
      exact fun member => (components ".." member).up rfl
    rw [isMaindoc_iff, folders_join t b (isAbsolute_ofComponents components) down, own]
  · intro path deep
    rw [isMaindoc, isMaindoc, folders_none t deep]

/-- A base that is spelled with steps up and with a main document directory of its own, under a place
with another one. -/
theorem isMaindoc_below_steps : (∀ n ∈ ["a", "maindoc", "f.xsd"], IsComponent n) ∧
    (∀ n ∈ ["common", "f.xsd"], IsComponent n) ∧
    isMaindoc ⟨.directory [], ["maindoc", "w"]⟩ "..//x/.././maindoc//a/maindoc/f.xsd" "urn:t"
      (some "..//x/.././maindoc//") = true ∧
    isMaindoc ⟨.directory [], ["maindoc", "w"]⟩ "..//x/.././maindoc//common/f.xsd" "urn:t"
      (some "..//x/.././maindoc//") = false ∧
    2 ≤ (names (FileTree.absolute ⟨.directory [], ["maindoc", "w"]⟩ "../f.xsd")).length ∧
    isMaindoc ⟨.directory [], ["maindoc", "w"]⟩ "../f.xsd" "urn:t" none = true := by
  have placed := isMaindoc_placed ⟨.directory [], ["maindoc", "w"]⟩ "urn:t"
  have inside : ∀ n ∈ ["a", "maindoc", "f.xsd"], IsComponent n := by decide
  have beside : ∀ n ∈ ["common", "f.xsd"], IsComponent n := by decide
  have deep : 2 ≤ (names (FileTree.absolute ⟨.directory [], ["maindoc", "w"]⟩ "../f.xsd")).length := by
    decide
  refine ⟨inside, beside, ?_, ?_, deep, ?_⟩
  · exact (placed.1 "..//x/.././maindoc//" _ inside).2 (by decide)
  · exact Bool.eq_false_iff.2 (mt (placed.1 "..//x/.././maindoc//" _ beside).1 (by decide))
  · exact (placed.2 "../f.xsd" deep).trans (by decide)

end SchemaFile

end NamespacePlan
