import Mathlib.Data.List.DropRight
import NamespacePlan.Proofs.FileSearch

/-! The schemas that a search meets below a directory. Each path begins with the name of the directory
and one slash, however many slashes the name was given with, and goes on with a way down. -/
namespace NamespacePlan

open NamespacePlan.Path

/-! The beginning of a path below a directory. -/

namespace Path

def slashes (k : Nat) : String := String.ofList (List.replicate k '/')

/-- What stands before the rest of a path below a place. -/
def opening (base : String) : String :=
  if base = "" ∨ base.toList.getLast? = some '/' then base else base ++ "/"

theorem join_eq (base : String) {p : String} (relative : isAbsolute p = false) :
    join base p = opening base ++ p := by
  rw [join, if_neg (by simp [relative]), opening]
  split <;> rfl

theorem opening_opening_append (a b : String) :
    opening (opening a ++ b) = opening a ++ opening b := by
  by_cases empty : b = ""
  · subst empty
    have stays : opening "" = "" := rfl
    rw [stays, String.append_empty]
    by_cases closed : a = "" ∨ a.toList.getLast? = some '/'
    · have same : opening a = a := if_pos closed
      rw [same, same]
    · have longer : opening a = a ++ "/" := if_neg closed
      rw [longer, opening, if_pos (Or.inr (by simp [String.toList_append]))]
  · have letters : b.toList ≠ [] := fun h => empty (String.toList_inj.1 h)
    have last : (opening a ++ b).toList.getLast? = b.toList.getLast? := by
      rw [String.toList_append, List.getLast?_append_of_ne_nil _ letters]
    have nonempty : opening a ++ b ≠ "" := by
      intro h
      have text := congrArg String.toList h
      rw [String.toList_append] at text
      exact letters (List.append_eq_nil_iff.1 text).2
    rw [opening, last]
    by_cases closed : b.toList.getLast? = some '/'
    · have same : opening b = b := if_pos (Or.inr closed)
      rw [if_pos (Or.inr closed), same]
    · have longer : opening b = b ++ "/" := if_neg (not_or.2 ⟨empty, closed⟩)
      rw [if_neg (not_or.2 ⟨nonempty, closed⟩), longer, String.append_assoc]

theorem isAbsolute_append {a : String} (nonempty : a ≠ "") (b : String) :
    isAbsolute (a ++ b) = isAbsolute a := by
  rw [isAbsolute, isAbsolute, String.toList_append]
  cases letters : a.toList with
  | nil => exact absurd (String.toList_inj.1 letters) nonempty
  | cons c cs => rfl

theorem join_join (a : String) {b c : String} (left : isAbsolute b = false)
    (right : isAbsolute c = false) : join a (join b c) = join (join a b) c := by
  have whole : isAbsolute (join b c) = false := by
    by_cases empty : b = ""
    · rw [empty, join_eq _ right]
      exact right
    · rw [join_eq _ right, opening]
      split <;> simp only [String.append_assoc, isAbsolute_append empty, left]
  rw [join_eq a whole, join_eq b right, join_eq a left, join_eq _ right, opening_opening_append,
    String.append_assoc]

theorem isAbsolute_ofPieces {ns : List String} (proper : ∀ n ∈ ns, IsName n) :
    isAbsolute (ofPieces ns) = false := by
  by_cases empty : ns = []
  · rw [empty]
    rfl
  · obtain ⟨c, cs, letters, other⟩ := head?_ofPieces empty proper
    simp [isAbsolute, letters, other]

theorem isAbsolute_name {n : String} (proper : IsName n) : isAbsolute n = false := by
  rw [← ofPieces_singleton n]
  exact isAbsolute_ofPieces fun m h => List.mem_singleton.1 h ▸ proper

/-- A path ends as its last name does. -/
theorem getLast?_ofPieces (ms : List String) {m : String} (nonempty : m ≠ "") :
    (ofPieces (ms ++ [m])).toList.getLast? = m.toList.getLast? := by
  have letters : m.toList ≠ [] := fun h => nonempty (String.toList_inj.1 h)
  by_cases empty : ms = []
  · rw [empty, List.nil_append, ofPieces_singleton]
  · rw [ofPieces_append empty (List.cons_ne_nil m []), ofPieces_singleton, String.toList_append,
      List.getLast?_append_of_ne_nil _ letters]

theorem ofPieces_concat {ns : List String} (proper : ∀ n ∈ ns, IsName n) {n : String}
    (last : IsName n) : join (ofPieces ns) n = ofPieces (ns ++ [n]) := by
  rw [join_eq _ (isAbsolute_name last)]
  rcases List.eq_nil_or_concat' ns with rfl | ⟨ms, m, rfl⟩
  · rw [List.nil_append, ofPieces_singleton]
    exact String.empty_append
  · have name := proper m (by simp)
    have letters : m.toList ≠ [] := fun h => name.nonempty (String.toList_inj.1 h)
    have ending := getLast?_ofPieces ms name.nonempty
    have closed : m.toList.getLast? ≠ some '/' := fun h => name.slash (List.mem_of_getLast? h)
    have more : ofPieces (ms ++ [m]) ≠ "" := by
      intro h
      rw [h] at ending
      exact letters (List.getLast?_eq_none_iff.1 ending.symm)
    have longer : opening (ofPieces (ms ++ [m])) = ofPieces (ms ++ [m]) ++ "/" :=
      if_neg (not_or.2 ⟨more, ending ▸ closed⟩)
    rw [longer, ofPieces_append (by simp) (List.cons_ne_nil n []), ofPieces_singleton]

theorem slashes_succ (k : Nat) : slashes (k + 1) = slashes k ++ "/" := by
  apply String.toList_inj.1
  simp [slashes, String.toList_append, List.replicate_succ']

theorem pieces_slashes (a : String) (k : Nat) :
    pieces (a ++ slashes k) = pieces a ++ List.replicate k "" := by
  induction k with
  | zero => rw [List.replicate_zero, List.append_nil]; exact congrArg pieces String.append_empty
  | succ k ih =>
    have last := pieces_slash (a ++ slashes k) ""
    rw [String.append_empty, pieces_empty, ih, List.append_assoc, ← List.replicate_succ'] at last
    rw [slashes_succ, ← String.append_assoc, last]

theorem isAbsolute_slashes (a : String) (k : Nat) (p : String) :
    isAbsolute (a ++ slashes k ++ "/" ++ p) = isAbsolute (a ++ "/") := by
  by_cases empty : a = ""
  · subst empty
    cases k <;> simp [isAbsolute, slashes, String.toList_append, List.replicate_succ]
  · simp only [String.append_assoc, isAbsolute_append empty]

end Path

namespace Glob

theorem exists_core (d : String) : ∃ core k, d = core ++ slashes k ∧
    core.toList.getLast? ≠ some '/' ∧ dropSlashes d = if core = "" then d else core := by
  refine ⟨String.ofList (d.toList.rdropWhile (· == '/')), (d.toList.rtakeWhile (· == '/')).length,
    ?_, ?_, ?_⟩
  · have all : d.toList.rtakeWhile (· == '/') =
        List.replicate (d.toList.rtakeWhile (· == '/')).length '/' := by
      refine List.eq_replicate_of_mem fun c member => ?_
      simpa using List.mem_rtakeWhile_imp member
    apply String.toList_inj.1
    rw [String.toList_append, String.toList_ofList, slashes, String.toList_ofList, ← all,
      List.rdropWhile_append_rtakeWhile]
  · rw [String.toList_ofList]
    intro slash
    have more : d.toList.rdropWhile (· == '/') ≠ [] := by
      intro h
      simp [h] at slash
    have last := List.rdropWhile_last_not (· == '/') d.toList more
    rw [List.getLast?_eq_some_getLast more] at slash
    simp [Option.some.inj slash] at last
  · rw [dropSlashes]
    change (if (d.toList.rdropWhile (· == '/')).isEmpty then d else
      String.ofList (d.toList.rdropWhile (· == '/'))) = _
    by_cases empty : d.toList.rdropWhile (· == '/') = []
    · simp [empty]
    · have nonempty : String.ofList (d.toList.rdropWhile (· == '/')) ≠ "" := by
        intro h
        exact empty (by simpa using congrArg String.toList h)
      simp [nonempty, empty]

/-- The beginning of every path that is found below a directory. A name with more than one slash at
its end comes first without them. -/
theorem exists_opening {d : String} (nonempty : d ≠ "") : ∃ q m j, d = q ++ slashes m ∧
    opening (dropSlashes d) = q ++ "/" ∧ opening d = q ++ slashes j ++ "/" ∧
    isAbsolute (q ++ "/") = isAbsolute d ∧ (dropSlashes d = d ∨ dropSlashes d = q ∧ q ≠ "") ∧
    (j = 0 ∨ q ≠ "" ∧ q.toList.getLast? ≠ some '/') := by
  obtain ⟨core, k, whole, last, kept⟩ := exists_core d
  by_cases empty : core = ""
  · -- nothing but slashes
    rw [if_pos empty] at kept
    rw [empty, String.empty_append] at whole
    obtain ⟨k, rfl⟩ : ∃ m, k = m + 1 := by
      cases k with
      | zero => exact absurd whole nonempty
      | succ m => exact ⟨m, rfl⟩
    have closed : opening d = d := by
      rw [opening, if_pos]
      right
      rw [whole, slashes, String.toList_ofList, List.replicate_succ', List.getLast?_concat]
    have text : d = slashes k ++ "/" := by rw [whole, slashes_succ]
    refine ⟨slashes k, 1, 0, text, ?_, ?_, congrArg isAbsolute text.symm, Or.inl kept, Or.inl rfl⟩
    · rw [kept, closed, text]
    · rw [closed, text]
      exact congrArg (· ++ "/") String.append_empty.symm
  · rw [if_neg empty] at kept
    have longer : opening core = core ++ "/" := if_neg (not_or.2 ⟨empty, last⟩)
    have rooted : isAbsolute (core ++ "/") = isAbsolute d := by
      rw [whole, isAbsolute_append empty, isAbsolute_append empty]
    refine ⟨core, k, k - 1, whole, ?_, ?_, rooted, Or.inr ⟨kept, empty⟩, Or.inr ⟨empty, last⟩⟩
    · rw [kept, longer]
    · cases k with
      | zero =>
        have same : d = core := whole.trans String.append_empty
        rw [same, longer]
        exact congrArg (· ++ "/") String.append_empty.symm
      | succ k =>
        have text : d = core ++ slashes k ++ "/" := by
          rw [whole, slashes_succ, String.append_assoc]
        rw [opening, if_pos, text, Nat.add_sub_cancel]
        right
        rw [text, String.toList_append]
        exact List.getLast?_concat

end Glob

/-! Following such a path. -/

namespace FileTree

theorem find?_eq_some {t : FileTree} {path : String} {n : FileNode} (found : t.find? path = some n) :
    path ≠ "" ∧ '\x00' ∉ path.toList ∧
      ∃ place, t.follow path (pieces path) = .ok place ∧ t.root.below? place = some n := by
  rw [find?, locate] at found
  split at found
  · cases found
  · next place located =>
    split at located
    · cases located
    · next proper =>
      simp only [not_or, List.contains_eq_mem, decide_eq_true_eq] at proper
      exact ⟨proper.1, proper.2, place, located, found⟩

theorem find?_of_follow {t : FileTree} {path : String} {place : List String} (nonempty : path ≠ "")
    (nul : '\x00' ∉ path.toList) (steps : t.follow path (pieces path) = .ok place) :
    t.find? path = t.root.below? place := by
  rw [find?, locate, if_neg (by simp [nonempty, nul]), steps]

theorem steps_stay {t : FileTree} {place : List String} {entries : List (String × FileNode)}
    (here : t.root.below? place = some (.directory entries)) (k : Nat) :
    (List.replicate k "").foldlM t.step place = .ok place := by
  induction k with
  | zero => rfl
  | succ k ih =>
    rw [List.replicate_succ, List.foldlM_cons, step_empty here]
    exact ih

/-- A path to a directory leads there without the slashes at its end too. -/
theorem follow_slashes {t : FileTree} {q : String} {m : Nat} {start place : List String}
    (steps : (pieces (q ++ slashes m)).foldlM t.step start = .ok place) :
    (pieces q).foldlM t.step start = .ok place := by
  rw [pieces_slashes, List.foldlM_append] at steps
  cases first : (pieces q).foldlM t.step start with
  | error f =>
    rw [first] at steps
    cases steps
  | ok mid =>
    rw [first] at steps
    rw [steps_empty steps]

theorem nul_slashes (k : Nat) : '\x00' ∉ (slashes k).toList := by
  rw [slashes, String.toList_ofList]
  intro member
  exact absurd (List.eq_of_mem_replicate member) (by decide)

theorem find?_core {t : FileTree} {q : String} {m : Nat} {n : FileNode} (nonempty : q ≠ "")
    (found : t.find? (q ++ slashes m) = some n) : t.find? q = some n := by
  obtain ⟨_, nul, place, steps, here⟩ := find?_eq_some found
  rw [follow, isAbsolute_append nonempty] at steps
  rw [String.toList_append, List.mem_append, not_or] at nul
  rw [find?_of_follow nonempty nul.1 (follow_slashes steps), here]

/-- Below the directory a path leads to, the names of a way lead on. -/
theorem find?_below {t : FileTree} {q : String} {m : Nat} {n k : FileNode}
    (found : t.find? (q ++ slashes m) = some n) (kind : n.isDirectory = true)
    (rooted : isAbsolute (q ++ "/") = isAbsolute (q ++ slashes m)) (j : Nat) {names : List String}
    (proper : ∀ name ∈ names, IsName name) (below : n.below? names = some k) :
    t.find? (q ++ slashes j ++ "/" ++ ofPieces names) = some k := by
  obtain ⟨_, nul, place, steps, here⟩ := find?_eq_some found
  obtain ⟨entries, rfl⟩ : ∃ entries, n = .directory entries := by
    cases n with
    | file bytes => cases kind
    | directory entries => exact ⟨entries, rfl⟩
  have onward : t.follow (q ++ slashes j ++ "/" ++ ofPieces names)
      (pieces (q ++ slashes j ++ "/" ++ ofPieces names)) = .ok (place ++ names) := by
    have start := follow_slashes steps
    rw [← rooted, ← isAbsolute_slashes q j (ofPieces names)] at start
    rw [follow, pieces_slash, pieces_slashes, List.foldlM_append, List.foldlM_append, start]
    change ((List.replicate j "").foldlM t.step place >>= _) = _
    rw [steps_stay here]
    change (pieces (ofPieces names)).foldlM t.step place = _
    by_cases empty : names = []
    · subst empty
      rw [List.append_nil]
      exact steps_stay here 1
    · rw [pieces_ofPieces empty fun x member => (proper x member).slash]
      exact steps_names here proper below
  have letters : '\x00' ∉ (q ++ slashes j ++ "/" ++ ofPieces names).toList := by
    rw [String.toList_append, List.mem_append, not_or] at nul
    rw [toList_slash, String.toList_append]
    simp only [List.mem_append, List.mem_cons, not_or]
    refine ⟨⟨nul.1, nul_slashes j⟩, by decide, fun inside => ?_⟩
    rcases of_mem_ofPieces inside with slash | ⟨name, member, letter⟩
    · exact absurd slash (by decide)
    · exact (proper name member).nul letter
  rw [find?_of_follow ?_ letters onward, FileNode.below?_append, here, Option.bind_some, below]
  intro empty
  have text := congrArg String.toList empty
  rw [toList_slash] at text
  simp at text

end FileTree

/-! The search. -/

namespace Glob

theorem dropSlashes_opening {d : String} (nonempty : d ≠ "") :
    dropSlashes (opening d) = dropSlashes d := by
  by_cases closed : d = "" ∨ d.toList.getLast? = some '/'
  · rw [opening, if_pos closed]
  · obtain ⟨xs, x, letters⟩ := (List.eq_nil_or_concat' d.toList).resolve_left
      fun h => nonempty (String.toList_inj.1 h)
    have other : (x == '/') = false := by
      simp only [letters, List.getLast?_concat, not_or] at closed
      simpa using closed.2
    have text : (d ++ "/").toList = d.toList ++ ['/'] := String.toList_append
    rw [opening, if_neg closed, dropSlashes, dropSlashes, text, letters]
    simp [other]

/-- The names of a schema search: any depth, and the ending of a schema. -/
theorem literalPart_pattern {d : String} (nonempty : d ≠ "")
    (plain : isPattern d = false) :
    literalPart (SchemaSet.pattern d) = (dropSlashes d, [anyDepth, "*.xsd"]) := by
  obtain ⟨q, m, j, whole, _, closed, _⟩ := exists_opening nonempty
  have relative : isAbsolute anyDepth = false := by decide
  have text : SchemaSet.pattern d = q ++ slashes j ++ "/" ++ anyDepth ++ "/" ++ "*.xsd" := by
    have last : opening anyDepth = anyDepth ++ "/" := by decide
    rw [SchemaSet.pattern, join_eq d relative, join_eq _ (by decide), opening_opening_append, last,
      closed, ← String.append_assoc]
  have literal : ∀ p ∈ pieces (q ++ slashes j), isPattern p = false := by
    intro p member
    rw [isPattern, List.any_eq_false]
    intro c inside
    have letter := mem_of_mem_pieces member inside
    rw [String.toList_append, List.mem_append, slashes, String.toList_ofList] at letter
    rcases letter with own | slash
    · have given : c ∈ d.toList := by
        rw [whole, String.toList_append]
        exact List.mem_append_left _ own
      exact List.any_eq_false.1 plain c given
    · rw [List.eq_of_mem_replicate slash]
      decide
  have front : (pieces (q ++ slashes j) ++ [anyDepth, "*.xsd"]).takeWhile (!isPattern ·) =
      pieces (q ++ slashes j) := by
    rw [List.takeWhile_append_of_pos fun p member => by simp [literal p member]]
    exact List.append_nil _
  have some : (pieces (q ++ slashes j)).isEmpty = false := by
    simpa [pieces] using Text.splitAt_ne_nil '/' _
  have names : pieces (SchemaSet.pattern d) = pieces (q ++ slashes j) ++ [anyDepth, "*.xsd"] := by
    rw [text, pieces_slash, pieces_slash, List.append_assoc]
    rfl
  simp only [literalPart, names, front, some, List.drop_left, ofPieces_pieces, ← closed,
    dropSlashes_opening nonempty]
  rfl

section Search

variable {t : FileTree} {d : String} {n : FileNode}

/-- A way down to a schema. Files and directories alike can have the ending. -/
structure Leads (n : FileNode) (names : List String) : Prop where
  found : (n.below? names).isSome
  visible : Visible names
  ending : ∃ name, names.getLast? = some name ∧ ".xsd".toList <:+ name.toList

theorem Leads.proper {names : List String} (leads : Leads n names) (proper : n.Proper) :
    names ≠ [] ∧ ∀ name ∈ names, IsName name := by
  obtain ⟨m, found⟩ := Option.isSome_iff_exists.1 leads.found
  refine ⟨?_, (proper.reached found).1⟩
  rintro rfl
  obtain ⟨name, last, _⟩ := leads.ending
  cases last

theorem mem_fitting_iff {m : FileNode} (proper : m.Proper) (name : String) :
    name ∈ fitting false "*.xsd" m ↔
      (m.child? name).isSome ∧ isHidden name = false ∧ ".xsd".toList <:+ name.toList := by
  have pattern : Text.Wildcard.matchesName "*.xsd" name = true ↔ ".xsd".toList <:+ name.toList :=
    Text.Wildcard.matchesName_star _ (by decide) name
  have shown : isHidden "*.xsd" = false := by decide
  cases proper with
  | file bytes => simp [fitting, FileNode.child?]
  | @directory entries nodup _ _ =>
    rw [fitting, List.mem_map]
    constructor
    · rintro ⟨⟨_, k⟩, member, rfl⟩
      simp only [List.mem_filter, shown, Bool.false_or, Bool.not_false, Bool.true_or, Bool.and_true,
        Bool.and_eq_true, Bool.not_eq_true', pattern] at member
      have child := (FileNode.lookup_eq_some_iff nodup _ k).2 member.1
      exact ⟨Option.isSome_iff_exists.2 ⟨k, child⟩, member.2⟩
    · rintro ⟨some, own, ending⟩
      obtain ⟨k, child⟩ := Option.isSome_iff_exists.1 some
      refine ⟨(name, k), ?_, rfl⟩
      simp only [List.mem_filter, shown, Bool.false_or, Bool.not_false, Bool.true_or, Bool.and_true,
        Bool.and_eq_true, Bool.not_eq_true', pattern]
      exact ⟨(FileNode.lookup_eq_some_iff nodup name k).1 child, own, ending⟩

theorem way_injective (proper : n.Proper) {ms ns : List String} (left : (n.below? ms).isSome)
    (right : (n.below? ns).isSome) (long : ms ≠ []) (long' : ns ≠ [])
    (same : ofPieces ms = ofPieces ns) : ms = ns := by
  obtain ⟨k, found⟩ := Option.isSome_iff_exists.1 left
  obtain ⟨l, found'⟩ := Option.isSome_iff_exists.1 right
  rw [← pieces_ofPieces long fun x h => ((proper.reached found).1 x h).slash, same,
    pieces_ofPieces long' fun x h => ((proper.reached found').1 x h).slash]

/-- The ways down to the schemas right below one directory. -/
def schemasIn (n : FileNode) (way : String) : List String :=
  (((n.below? (Path.names way)).map (fitting false "*.xsd")).getD []).map (join way)

theorem mem_schemasIn_iff (proper : n.Proper) {names : List String} {m : FileNode}
    (found : n.below? names = some m) (p : String) :
    p ∈ schemasIn n (ofPieces names) ↔ ∃ name, (m.child? name).isSome ∧ isHidden name = false ∧
      ".xsd".toList <:+ name.toList ∧ p = ofPieces (names ++ [name]) := by
  have reached := proper.reached found
  rw [schemasIn, names_ofPieces reached.1, found, Option.map_some, Option.getD_some, List.mem_map]
  refine exists_congr fun name => ?_
  rw [mem_fitting_iff reached.2, and_assoc, and_assoc]
  refine and_congr_right fun some => and_congr_right fun _ => and_congr_right fun _ => ?_
  obtain ⟨k, child⟩ := Option.isSome_iff_exists.1 some
  rw [ofPieces_concat reached.1 (reached.2.child child).1, eq_comm]

theorem nodup_schemasIn (proper : n.Proper) {names : List String} {m : FileNode}
    (found : n.below? names = some m) : (schemasIn n (ofPieces names)).Nodup := by
  have reached := proper.reached found
  rw [schemasIn, names_ofPieces reached.1, found, Option.map_some, Option.getD_some]
  refine List.Nodup.map_on ?_ ?_
  · intro x left y right same
    have first := ((mem_fitting_iff reached.2 x).1 left).1
    have second := ((mem_fitting_iff reached.2 y).1 right).1
    obtain ⟨k, child⟩ := Option.isSome_iff_exists.1 first
    obtain ⟨l, child'⟩ := Option.isSome_iff_exists.1 second
    rw [ofPieces_concat reached.1 (reached.2.child child).1,
      ofPieces_concat reached.1 (reached.2.child child').1] at same
    rw [← FileNode.below?_concat found] at first second
    have whole := way_injective proper first second (by simp) (by simp) same
    exact List.singleton_inj.1 (List.append_cancel_left whole)
  · cases reached.2 with
    | file bytes => exact List.nodup_nil
    | directory nodup _ _ => exact nodup.sublist (List.Sublist.map _ List.filter_sublist)

/-- The ways down to the schemas, as the search meets them: below each directory that is met, the names
with the ending. -/
def schemaWays (n : FileNode) : List String := ("" :: below true n).flatMap (schemasIn n)

/-- The ways the search goes on from. -/
theorem mem_start_iff (proper : n.Proper) (kind : n.isDirectory = true) (w : String) :
    w ∈ "" :: below true n ↔ ∃ names m, Visible names ∧ n.below? names = some m ∧
      m.isDirectory = true ∧ w = ofPieces names := by
  rw [List.mem_cons, mem_below_iff proper]
  constructor
  · rintro (rfl | ⟨names, m, _, visible, found, inner, rfl⟩)
    · exact ⟨[], n, fun _ h => (nomatch h), rfl, kind, rfl⟩
    · exact ⟨names, m, visible, found, inner rfl, rfl⟩
  · rintro ⟨names, m, visible, found, inner, rfl⟩
    by_cases empty : names = []
    · exact Or.inl (by rw [empty]; rfl)
    · exact Or.inr ⟨names, m, empty, visible, found, fun _ => inner, rfl⟩

theorem mem_schemaWays_iff (proper : n.Proper) (kind : n.isDirectory = true) (p : String) :
    p ∈ schemaWays n ↔ ∃ names, Leads n names ∧ p = ofPieces names := by
  rw [schemaWays, List.mem_flatMap]
  constructor
  · rintro ⟨w, start, inner⟩
    obtain ⟨names, m, visible, found, _, rfl⟩ := (mem_start_iff proper kind w).1 start
    obtain ⟨name, child, shown, ending, rfl⟩ := (mem_schemasIn_iff proper found p).1 inner
    refine ⟨names ++ [name], ⟨?_, ?_, name, List.getLast?_concat, ending⟩, rfl⟩
    · rwa [FileNode.below?_concat found]
    · intro x member
      rcases List.mem_append.1 member with before | last
      · exact visible x before
      · rwa [List.mem_singleton.1 last]
  · rintro ⟨names, leads, rfl⟩
    obtain ⟨name, last, ending⟩ := leads.ending
    obtain ⟨front, rfl⟩ : ∃ front, names = front ++ [name] := List.getLast?_eq_some_iff.1 last
    obtain ⟨k, found⟩ := Option.isSome_iff_exists.1 leads.found
    rw [FileNode.below?_append, Option.bind_eq_some_iff] at found
    obtain ⟨m, first, child⟩ := found
    rw [FileNode.below?_singleton] at child
    have inner : m.isDirectory = true := by
      cases m with
      | file bytes => cases child
      | directory entries => rfl
    refine ⟨ofPieces front, (mem_start_iff proper kind _).2 ⟨front, m, ?_, first, inner, rfl⟩,
      (mem_schemasIn_iff proper first _).2 ⟨name, ?_, ?_, ending, rfl⟩⟩
    · exact fun x member => leads.visible x (List.mem_append_left _ member)
    · rw [child]
      rfl
    · exact leads.visible name (List.mem_append_right _ (List.mem_singleton_self name))

theorem nodup_schemaWays (proper : n.Proper) (kind : n.isDirectory = true) :
    (schemaWays n).Nodup := by
  have starts : ("" :: below true n).Nodup := by
    refine List.nodup_cons.2 ⟨fun member => ?_, nodup_below proper true⟩
    obtain ⟨names, m, some, _, found, _, empty⟩ := (mem_below_iff proper true "").1 member
    obtain ⟨c, cs, letters, _⟩ := head?_ofPieces some (proper.reached found).1
    rw [← empty] at letters
    cases letters
  refine List.nodup_flatMap.2 ⟨fun w start => ?_, starts.pairwise_of_forall_ne ?_⟩
  · obtain ⟨names, m, _, found, _, rfl⟩ := (mem_start_iff proper kind w).1 start
    exact nodup_schemasIn proper found
  · -- a way tells the directory it goes through last
    intro v left w right other p first second
    obtain ⟨xs, m, _, found, _, rfl⟩ := (mem_start_iff proper kind v).1 left
    obtain ⟨ys, k, _, found', _, rfl⟩ := (mem_start_iff proper kind w).1 right
    obtain ⟨x, here, _, _, rfl⟩ := (mem_schemasIn_iff proper found p).1 first
    obtain ⟨y, there, _, _, same⟩ := (mem_schemasIn_iff proper found' _).1 second
    rw [← FileNode.below?_concat found] at here
    rw [← FileNode.below?_concat found'] at there
    have whole := way_injective proper here there (by simp) (by simp) same
    exact other (congrArg ofPieces (List.append_inj_left' whole rfl))

theorem find_pattern (proper : n.Proper) (found : t.find? d = some n)
    (kind : n.isDirectory = true) (plain : isPattern d = false) :
    find t (SchemaSet.pattern d) = (schemaWays n).map (join (dropSlashes d)) := by
  obtain ⟨nonempty, _⟩ := FileTree.find?_eq_some found
  obtain ⟨q, m, j, whole, first, _, rooted, kept, _⟩ := exists_opening nonempty
  have start : dropSlashes d ≠ "" ∧ t.find? (dropSlashes d) = some n := by
    rcases kept with same | ⟨same, more⟩
    · rw [same]
      exact ⟨nonempty, found⟩
    · rw [same]
      exact ⟨more, FileTree.find?_core (m := m) more (whole ▸ found)⟩
  have fromStart : extend t true anyDepth (dropSlashes d) =
      ("" :: below true n).map (join (dropSlashes d)) := by
    rw [extend, if_pos rfl, nodeAt, if_neg start.1, start.2]
    rfl
  have onward : ∀ w ∈ "" :: below true n, extend t false "*.xsd" (join (dropSlashes d) w) =
      (schemasIn n w).map (join (dropSlashes d)) := by
    intro w member
    obtain ⟨names, k, _, reached, _, rfl⟩ := (mem_start_iff proper kind w).1 member
    have own := proper.reached reached
    have relative := isAbsolute_ofPieces own.1
    have text : join (dropSlashes d) (ofPieces names) = q ++ slashes 0 ++ "/" ++ ofPieces names := by
      rw [join_eq _ relative, first]
      exact congrArg (· ++ "/" ++ ofPieces names) String.append_empty.symm
    have more : join (dropSlashes d) (ofPieces names) ≠ "" := by
      intro empty
      rw [text] at empty
      have letters := congrArg String.toList empty
      rw [toList_slash] at letters
      simp at letters
    have there : t.find? (join (dropSlashes d) (ofPieces names)) = some k := by
      rw [text]
      exact FileTree.find?_below (whole ▸ found) kind (whole ▸ rooted) 0 own.1 reached
    rw [extend, if_neg (by decide), if_pos (by decide), nodeAt, if_neg more, there, schemasIn,
      names_ofPieces own.1, reached, List.map_map]
    refine List.map_congr_left fun name fits => ?_
    obtain ⟨l, child⟩ := Option.isSome_iff_exists.1 ((mem_fitting_iff own.2 name).1 fits).1
    exact (join_join _ relative (isAbsolute_name (own.2.child child).1)).symm
  rw [find, literalPart_pattern nonempty plain]
  simp only [extendAll, List.flatMap_cons, List.flatMap_nil, List.append_nil, List.isEmpty_cons,
    List.isEmpty_nil, Bool.not_false, Bool.not_true]
  rw [fromStart, List.flatMap_map, schemaWays, List.map_flatMap]
  exact List.flatMap_congr onward

end Search

end Glob

end NamespacePlan
