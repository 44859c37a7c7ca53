import NamespacePlan.Path
import NamespacePlan.Proofs.DottedNames

/-! Paths as texts. Names put together with slashes come apart at them again, and the place a path
leads to is the place of its beginning with the rest of its names behind it. -/
namespace NamespacePlan.Path

open Text

/-- A name that an entry of a directory can have. -/
structure IsName (s : String) : Prop where
  nonempty : s ≠ ""
  here : s ≠ "."
  up : s ≠ ".."
  slash : '/' ∉ s.toList
  nul : '\x00' ∉ s.toList

instance (s : String) : Decidable (IsName s) :=
  decidable_of_iff (s ≠ "" ∧ s ≠ "." ∧ s ≠ ".." ∧ '/' ∉ s.toList ∧ '\x00' ∉ s.toList)
    ⟨fun ⟨nonempty, here, up, slash, nul⟩ => ⟨nonempty, here, up, slash, nul⟩,
      fun h => ⟨h.nonempty, h.here, h.up, h.slash, h.nul⟩⟩

/-! Pieces. -/

theorem toList_slash (a b : String) : (a ++ "/" ++ b).toList = a.toList ++ '/' :: b.toList := by
  rw [String.toList_append, String.toList_append, List.append_assoc]
  rfl

theorem pieces_slash (a b : String) : pieces (a ++ "/" ++ b) = pieces a ++ pieces b := by
  rw [pieces, toList_slash, splitAt_append, List.map_append]
  rfl

theorem pieces_empty : pieces "" = [""] := rfl

theorem pieces_of_name {s : String} (slash : '/' ∉ s.toList) : pieces s = [s] := by
  rw [pieces, splitAt_of_not_mem slash, List.map_singleton, String.ofList_toList]

theorem ofPieces_cons (n : String) {ns : List String} (more : ns ≠ []) :
    ofPieces (n :: ns) = n ++ "/" ++ ofPieces ns :=
  String.intercalate_cons_of_ne_nil more

theorem ofPieces_singleton (n : String) : ofPieces [n] = n := String.intercalate_singleton

theorem pieces_ofPieces {ns : List String} (nonempty : ns ≠ []) (slash : ∀ n ∈ ns, '/' ∉ n.toList) :
    pieces (ofPieces ns) = ns := by
  induction ns with
  | nil => exact absurd rfl nonempty
  | cons n ns ih =>
    have first := pieces_of_name (slash n List.mem_cons_self)
    cases ns with
    | nil => rw [ofPieces_singleton, first]
    | cons m ms =>
      have rest := ih (List.cons_ne_nil m ms) fun x member => slash x (List.mem_cons_of_mem n member)
      rw [ofPieces_cons n (List.cons_ne_nil m ms), pieces_slash, first, rest, List.singleton_append]

theorem ofPieces_append {ms ns : List String} (left : ms ≠ []) (right : ns ≠ []) :
    ofPieces (ms ++ ns) = ofPieces ms ++ "/" ++ ofPieces ns := by
  induction ms with
  | nil => exact absurd rfl left
  | cons m ms ih =>
    cases ms with
    | nil => rw [List.singleton_append, ofPieces_cons m right, ofPieces_singleton]
    | cons k ks =>
      have rest := ih (List.cons_ne_nil k ks)
      rw [List.cons_append, ofPieces_cons m (by simp), rest, ofPieces_cons m (List.cons_ne_nil k ks)]
      simp only [String.append_assoc]

theorem ofPieces_pieces (path : String) : ofPieces (pieces path) = path := by
  have joined : ∀ ws : List (List Char), joinWith ['/'] ws = ['/'].intercalate ws := by
    intro ws
    induction ws with
    | nil => rfl
    | cons w ws ih =>
      cases ws with
      | nil => exact List.intercalate_singleton.symm
      | cons v vs =>
        rw [joinWith, ih, List.intercalate_cons_cons]
        simp
  apply String.toList_inj.1
  have letters : (pieces path).map String.toList = splitAt '/' path.toList := by
    rw [pieces, List.map_map]
    exact (List.map_congr_left fun w _ => String.toList_ofList).trans (List.map_id _)
  rw [ofPieces, String.toList_intercalate, letters]
  exact (joined _).symm.trans (joinWith_splitAt '/' path.toList)

theorem mem_joinWith {sep w : List Char} {ws : List (List Char)} (member : w ∈ ws) {c : Char}
    (inside : c ∈ w) : c ∈ joinWith sep ws := by
  induction ws with
  | nil => cases member
  | cons v vs ih =>
    cases vs with
    | nil => rwa [List.mem_singleton.1 member] at inside
    | cons u us =>
      rw [joinWith]
      · rcases List.mem_cons.1 member with rfl | later
        · exact List.mem_append_left _ (List.mem_append_left _ inside)
        · exact List.mem_append_right _ (ih later)
      · simp

theorem mem_of_mem_pieces {path p : String} (member : p ∈ pieces path) {c : Char}
    (inside : c ∈ p.toList) : c ∈ path.toList := by
  obtain ⟨w, piece, rfl⟩ := List.mem_map.1 member
  rw [String.toList_ofList] at inside
  rw [← joinWith_splitAt '/' path.toList]
  exact mem_joinWith piece inside

theorem slash_not_mem_pieces {path p : String} (member : p ∈ pieces path) : '/' ∉ p.toList := by
  have apart : ∀ cs : List Char, ∀ w ∈ Text.splitAt '/' cs, '/' ∉ w := by
    intro cs
    induction cs with
    | nil => simp [Text.splitAt]
    | cons c cs ih =>
      unfold Text.splitAt
      split
      · simpa using ih
      · rename_i other
        split
        · simp [Ne.symm other]
        · rename_i w ws parts
          simp only [parts, List.mem_cons, forall_eq_or_imp] at ih ⊢
          simpa [Ne.symm other] using ih
  obtain ⟨w, piece, rfl⟩ := List.mem_map.1 member
  simpa using apart _ w piece

theorem of_mem_ofPieces {ns : List String} {c : Char} (inside : c ∈ (ofPieces ns).toList) :
    c = '/' ∨ ∃ n ∈ ns, c ∈ n.toList := by
  induction ns with
  | nil => cases inside
  | cons n ns ih =>
    by_cases last : ns = []
    · rw [last, ofPieces_singleton] at inside
      exact Or.inr ⟨n, List.mem_cons_self, inside⟩
    · rw [ofPieces_cons n last, toList_slash, List.mem_append, List.mem_cons] at inside
      rcases inside with first | slash | rest
      · exact Or.inr ⟨n, List.mem_cons_self, first⟩
      · exact Or.inl slash
      · refine (ih rest).imp_right fun ⟨m, member, letter⟩ => ?_
        exact ⟨m, List.mem_cons_of_mem n member, letter⟩

/-! Names at the end of a path. -/

theorem names_slash (a b : String) : names (a ++ "/" ++ b) = names a ++ names b := by
  rw [names, pieces_slash, List.filter_append]
  rfl

theorem names_ofSteps {ns : List String} (steps : ∀ n ∈ ns, n ≠ "" ∧ n ≠ "." ∧ '/' ∉ n.toList) :
    names (ofPieces ns) = ns := by
  by_cases none : ns = []
  · rw [none]
    rfl
  · rw [names, pieces_ofPieces none fun n member => (steps n member).2.2]
    refine List.filter_eq_self.2 fun n member => ?_
    simp [(steps n member).1, (steps n member).2.1]

theorem names_ofPieces {ns : List String} (proper : ∀ n ∈ ns, IsName n) :
    names (ofPieces ns) = ns :=
  names_ofSteps fun n member =>
    ⟨(proper n member).nonempty, (proper n member).here, (proper n member).slash⟩

theorem collapse_append (rooted : Bool) (ms : List String) {ns : List String}
    (down : ∀ n ∈ ns, n ≠ "..") : collapse rooted (ms ++ ns) = collapse rooted ms ++ ns := by
  rw [collapse, List.foldl_append, collapse]
  generalize ms.foldl _ [] = up
  induction ns generalizing up with
  | nil => rw [List.append_nil]; rfl
  | cons n ns ih =>
    have here := down n List.mem_cons_self
    rw [List.foldl_cons, ih (fun x member => down x (List.mem_cons_of_mem n member)), if_neg here,
      List.reverse_cons, List.append_assoc, List.singleton_append]

/-- A path begins as its first name does, without a slash. -/
theorem head?_ofPieces_cons {n : String} (ns : List String) (nonempty : n ≠ "")
    (slash : '/' ∉ n.toList) : ∃ c cs, (ofPieces (n :: ns)).toList = c :: cs ∧ c ≠ '/' := by
  obtain ⟨c, cs, letters⟩ : ∃ c cs, n.toList = c :: cs := by
    cases h : n.toList with
    | nil => exact absurd (String.toList_inj.1 h) nonempty
    | cons c cs => exact ⟨c, cs, rfl⟩
  have other : c ≠ '/' := by
    rintro rfl
    exact slash (letters ▸ List.mem_cons_self)
  cases ns with
  | nil => exact ⟨c, cs, by rw [ofPieces_singleton, letters], other⟩
  | cons m ms =>
    rw [ofPieces_cons n (List.cons_ne_nil m ms), toList_slash, letters]
    exact ⟨c, _, rfl, other⟩

theorem head?_ofPieces {ns : List String} (nonempty : ns ≠ []) (proper : ∀ n ∈ ns, IsName n) :
    ∃ c cs, (ofPieces ns).toList = c :: cs ∧ c ≠ '/' := by
  cases ns with
  | nil => exact absurd rfl nonempty
  | cons n ns =>
    have first := proper n List.mem_cons_self
    exact head?_ofPieces_cons ns first.nonempty first.slash

theorem root_slash (a : String) {p : String} {c : Char} {cs : List Char}
    (letters : p.toList = c :: cs) (other : c ≠ '/') : root (a ++ "/" ++ p) = root (a ++ "/") := by
  have whole : (a ++ "/" ++ p).toList = a.toList ++ '/' :: c :: cs := by
    rw [toList_slash, letters]
  have part : (a ++ "/").toList = a.toList ++ ['/'] := String.toList_append
  rw [root, root, whole, part]
  rcases a.toList with _ | ⟨x, _ | ⟨y, zs⟩⟩
  · simp [other]
  · by_cases slash : x = '/'
    · subst slash
      simp [other]
    · simp [slash]
  · by_cases slash : x = '/' ∧ y = '/'
    · obtain ⟨rfl, rfl⟩ := slash
      cases zs with
      | nil => rfl
      | cons z zs =>
        by_cases third : z = '/'
        · subst third
          rfl
        · simp [third]
    · by_cases first : x = '/'
      · subst first
        have second : y ≠ '/' := fun h => slash ⟨rfl, h⟩
        simp [second]
      · simp [first]

theorem normal_ofPieces (a : String) {ns : List String} (nonempty : ns ≠ [])
    (proper : ∀ n ∈ ns, IsName n) : normal (a ++ "/" ++ ofPieces ns) =
      write (root (a ++ "/")) (collapse (isAbsolute (a ++ "/")) (names a) ++ ns) := by
  obtain ⟨c, cs, letters, other⟩ := head?_ofPieces nonempty proper
  have rooted : isAbsolute (a ++ "/" ++ ofPieces ns) = isAbsolute (a ++ "/") := by
    rw [isAbsolute, isAbsolute, toList_slash, String.toList_append]
    cases a.toList <;> rfl
  rw [normal, root_slash a letters other, rooted, names_slash, names_ofPieces proper,
    collapse_append _ _ fun n member => (proper n member).up]

/-- Below a place, the absolute path of names is one text with the names behind it. -/
theorem exists_normal_below (a : String) : ∃ base, ∀ ns : List String, ns ≠ [] →
    (∀ n ∈ ns, IsName n) → normal (a ++ "/" ++ ofPieces ns) = base ++ ofPieces ns := by
  cases front : collapse (isAbsolute (a ++ "/")) (names a) with
  | nil =>
    refine ⟨root (a ++ "/"), fun ns nonempty proper => ?_⟩
    obtain ⟨c, cs, letters, _⟩ := head?_ofPieces nonempty proper
    rw [normal_ofPieces a nonempty proper, front, List.nil_append, write, if_neg]
    intro empty
    have text := congrArg String.toList empty
    rw [String.toList_append, letters] at text
    simp at text
  | cons m ms =>
    refine ⟨root (a ++ "/") ++ ofPieces (m :: ms) ++ "/", fun ns nonempty proper => ?_⟩
    rw [normal_ofPieces a nonempty proper, front, write,
      ofPieces_append (List.cons_ne_nil m ms) nonempty, if_neg]
    · simp only [String.append_assoc]
    · intro empty
      have text := congrArg String.toList empty
      simp [String.toList_append] at text

/-! Tidy paths. -/

/-- A path that is written without empty pieces and without steps that stay in their place. -/
def IsTidy (path : String) : Prop :=
  ∃ base ns, (base = "" ∨ base = "/" ∨ base = "//") ∧
    (∀ n ∈ ns, n ≠ "" ∧ n ≠ "." ∧ '/' ∉ n.toList) ∧ path = write base ns

theorem root_cases (path : String) : root path = "" ∨ root path = "/" ∨ root path = "//" := by
  unfold root
  split
  · exact .inr (.inl rfl)
  · exact .inr (.inr rfl)
  · exact .inr (.inl rfl)
  · exact .inl rfl

theorem isTidy_tidy (path : String) : IsTidy (tidy path) := by
  refine ⟨root path, names path, root_cases path, fun n member => ?_, rfl⟩
  obtain ⟨piece, kept⟩ := List.mem_filter.1 member
  simp only [Bool.and_eq_true, bne_iff_ne] at kept
  exact ⟨kept.1, kept.2, slash_not_mem_pieces piece⟩

/-- A tidy path has the root and the names that it is written with. -/
theorem parts_write {base : String} {ns : List String} (own : base = "" ∨ base = "/" ∨ base = "//")
    (steps : ∀ n ∈ ns, n ≠ "" ∧ n ≠ "." ∧ '/' ∉ n.toList) :
    root (write base ns) = base ∧ names (write base ns) = ns := by
  have inner := names_ofSteps steps
  have slashed := names_slash "" (ofPieces ns)
  have twice := names_slash "/" (ofPieces ns)
  rw [inner] at slashed twice
  cases ns with
  | nil => rcases own with rfl | rfl | rfl <;> exact ⟨by decide, by decide⟩
  | cons n ns =>
    have first := steps n List.mem_cons_self
    obtain ⟨c, cs, letters, other⟩ := head?_ofPieces_cons ns first.1 first.2.2
    have some : base ++ ofPieces (n :: ns) ≠ "" := by
      intro empty
      have text := congrArg String.toList empty
      simp [String.toList_append, letters] at text
    rw [write, if_neg some]
    rcases own with rfl | rfl | rfl
    · rw [String.empty_append]
      exact ⟨by simp [root, letters, other], inner⟩
    · exact ⟨by simp [root, String.toList_append, letters, other], slashed⟩
    · exact ⟨by simp [root, String.toList_append, letters, other], twice⟩

theorem IsTidy.tidy_eq {path : String} (tidied : IsTidy path) : tidy path = path := by
  obtain ⟨base, ns, own, steps, rfl⟩ := tidied
  obtain ⟨top, inner⟩ := parts_write own steps
  rw [tidy, top, inner]

/-- A tidy path stays as it is. -/
theorem tidy_tidy (path : String) : tidy (tidy path) = tidy path := (isTidy_tidy path).tidy_eq

end NamespacePlan.Path
