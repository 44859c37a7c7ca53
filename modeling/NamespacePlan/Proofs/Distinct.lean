/-! Lists without repetition. `List.eraseDups` keeps the first of equal elements, so a run that adds
what is new, in order, leaves exactly the distinct elements of its input. -/
namespace NamespacePlan.Distinct

variable {α β : Type} [BEq α] [LawfulBEq α] [BEq β] [LawfulBEq β]

theorem nodup_eraseDups (xs : List α) : xs.eraseDups.Nodup := by
  cases xs with
  | nil => simp
  | cons x rest =>
    rw [List.eraseDups_cons, List.nodup_cons]
    refine ⟨?_, nodup_eraseDups _⟩
    rw [List.mem_eraseDups]
    simp
termination_by xs.length
decreasing_by exact Nat.lt_succ_of_le (List.length_filter_le _ _)

theorem eraseDups_filter (keep : α → Bool) (xs : List α) :
    (xs.filter keep).eraseDups = xs.eraseDups.filter keep := by
  cases xs with
  | nil => simp
  | cons x rest =>
    have swap : (rest.filter keep).filter (fun y => !y == x) =
        (rest.filter fun y => !y == x).filter keep := by
      simp only [List.filter_filter, Bool.and_comm]
    have tail := eraseDups_filter keep (rest.filter fun y => !y == x)
    by_cases kept : keep x = true
    · simp only [List.filter_cons, kept, if_true, List.eraseDups_cons, swap, tail]
    · have absent : (rest.filter keep).filter (fun y => !y == x) = rest.filter keep := by
        refine List.filter_eq_self.2 fun y member => ?_
        have hy := (List.mem_filter.1 member).2
        simp only [Bool.not_eq_true', beq_eq_false_iff_ne]
        rintro rfl
        exact kept hy
      simp only [List.filter_cons, kept, List.eraseDups_cons, ← tail, ← swap, absent]
      rfl
termination_by xs.length
decreasing_by exact Nat.lt_succ_of_le (List.length_filter_le _ _)

/-- Mapping the distinct elements meets the images in the same order as mapping all of them. -/
theorem eraseDups_map_eraseDups (f : α → β) (xs : List α) :
    (xs.eraseDups.map f).eraseDups = (xs.map f).eraseDups := by
  cases xs with
  | nil => simp
  | cons x rest =>
    have tail := eraseDups_map_eraseDups f (rest.filter fun y => !y == x)
    have images : ((rest.filter fun y => !y == x).map f).filter (fun z => !z == f x) =
        (rest.map f).filter fun z => !z == f x := by
      simp only [List.filter_map, List.filter_filter]
      congr 1
      refine List.filter_congr fun y _ => ?_
      by_cases same : y = x
      · simp [same]
      · simp [same]
    simp only [List.eraseDups_cons, List.map_cons, List.cons.injEq, true_and]
    rw [eraseDups_filter, tail, ← eraseDups_filter, images]
termination_by xs.length
decreasing_by exact Nat.lt_succ_of_le (List.length_filter_le _ _)

theorem eraseDups_append_of_subset {xs ys : List α} (known : ∀ y ∈ ys, y ∈ xs) (zs : List α) :
    (xs ++ ys ++ zs).eraseDups = (xs ++ zs).eraseDups := by
  have nothing : ys.removeAll xs = [] := by
    refine List.filter_eq_nil_iff.2 fun y member => ?_
    simpa using known y member
  rw [List.append_assoc, List.eraseDups_append, List.eraseDups_append]
  congr 2
  simp only [List.removeAll, List.filter_append] at nothing ⊢
  rw [nothing, List.nil_append]

/-- Puts an element behind a list unless it stands there. -/
def addNew (xs : List α) (x : α) : List α := if x ∈ xs then xs else xs ++ [x]

theorem foldl_addNew (ys xs : List α) :
    ys.foldl addNew xs = xs ++ ys.eraseDups.filter (· ∉ xs) := by
  rw [← eraseDups_filter]
  induction ys generalizing xs with
  | nil => simp
  | cons y rest ih =>
    rw [List.foldl_cons, ih]
    by_cases member : y ∈ xs
    · simp [addNew, member]
    · have both : rest.filter (· ∉ xs ++ [y]) = (rest.filter (· ∉ xs)).filter fun z => !z == y := by
        rw [List.filter_filter]
        refine List.filter_congr fun z _ => ?_
        by_cases same : z = y
        · simp [same]
        · simp [same]
      simp only [addNew, member, if_false, both, List.filter_cons, not_false_eq_true, decide_true,
        if_true, List.eraseDups_cons, List.append_assoc, List.singleton_append]

omit [BEq α] [LawfulBEq α] in
/-- A strict order leaves one way to list some elements. -/
theorem eq_of_pairwise_of_mem {r : α → α → Prop} (asymm : ∀ {a b}, r a b → ¬r b a) {xs ys : List α}
    (left : xs.Pairwise r) (right : ys.Pairwise r) (same : ∀ a, a ∈ xs ↔ a ∈ ys) : xs = ys := by
  have nodup : ∀ {zs : List α}, zs.Pairwise r → zs.Nodup := by
    intro zs sorted
    refine sorted.imp fun less same => ?_
    subst same
    exact asymm less less
  have perm := (List.perm_ext_iff_of_nodup (nodup left) (nodup right)).2 same
  exact perm.eq_of_pairwise (fun a b _ _ less more => absurd more (asymm less)) left right

/-- The elements of a list, each of them once and in the order in which they come up. -/
structure Listing (xs seen : List α) : Prop where
  mem : ∀ x, x ∈ xs ↔ x ∈ seen
  order : xs.Pairwise fun x y => seen.idxOf x < seen.idxOf y

namespace Listing

variable {xs ys seen : List α}

theorem addNew (listing : Listing xs seen) (y : α) : Listing (addNew xs y) (seen ++ [y]) := by
  have early : ∀ {x}, x ∈ xs → (seen ++ [y]).idxOf x = seen.idxOf x := by
    intro x member
    rw [List.idxOf_append, if_pos ((listing.mem x).1 member)]
  have before : xs.Pairwise fun x z => (seen ++ [y]).idxOf x < (seen ++ [y]).idxOf z := by
    refine listing.order.imp_of_mem fun hx hz less => ?_
    rw [early hx, early hz]
    exact less
  unfold Distinct.addNew
  split
  case isTrue known =>
    have old := (listing.mem y).1 known
    refine ⟨fun x => ?_, before⟩
    simp only [listing.mem, List.mem_append, List.mem_singleton]
    constructor
    · exact .inl
    · rintro (member | rfl)
      · exact member
      · exact old
  case isFalse new =>
    have own : y ∉ seen := fun h => new ((listing.mem y).2 h)
    refine ⟨fun x => by simp [listing.mem], List.pairwise_append.2 ⟨before, by simp, ?_⟩⟩
    intro x member z last
    have there := List.idxOf_lt_length_iff.2 ((listing.mem x).1 member)
    cases List.mem_singleton.1 last
    simpa [early member, List.idxOf_append, own] using there

theorem foldl_addNew (listing : Listing xs seen) (ys : List α) :
    Listing (ys.foldl Distinct.addNew xs) (seen ++ ys) := by
  induction ys generalizing xs seen with
  | nil => simpa using listing
  | cons y ys ih => simpa using ih (listing.addNew y)

theorem eraseDups (xs : List α) : Listing xs.eraseDups xs := by
  have start : Listing ([] : List α) [] := ⟨by simp, .nil⟩
  have whole := start.foldl_addNew xs
  have all : xs.eraseDups.filter (· ∉ ([] : List α)) = xs.eraseDups :=
    List.filter_eq_self.2 (by simp)
  rwa [Distinct.foldl_addNew, all] at whole

omit [LawfulBEq α] in
theorem unique (left : Listing xs seen) (right : Listing ys seen) : xs = ys :=
  eq_of_pairwise_of_mem Nat.lt_asymm left.order right.order
    fun x => (left.mem x).trans (right.mem x).symm

end Listing

/-- What is looked for is found first where it comes up first. -/
theorem find?_eraseDups (p : α → Bool) (xs : List α) : xs.eraseDups.find? p = xs.find? p := by
  rw [← List.head?_filter, ← eraseDups_filter, ← List.head?_filter]
  cases xs.filter p with
  | nil => simp
  | cons x rest => simp [List.eraseDups_cons]

omit [BEq α] [LawfulBEq α] in
/-- Lists with the same elements and no repetition are sorted into the same list. -/
theorem mergeSort_eq_of_mem {le : α → α → Bool} {xs ys : List α}
    (trans : ∀ a b c, le a b = true → le b c = true → le a c = true)
    (total : ∀ a b, (le a b || le b a) = true)
    (antisymm : ∀ a b, le a b = true → le b a = true → a = b)
    (left : xs.Nodup) (right : ys.Nodup) (same : ∀ a, a ∈ xs ↔ a ∈ ys) :
    xs.mergeSort le = ys.mergeSort le := by
  have perm : xs.Perm ys := (List.perm_ext_iff_of_nodup left right).2 same
  have sorted : (xs.mergeSort le).Perm (ys.mergeSort le) :=
    (List.mergeSort_perm xs le).trans (perm.trans (List.mergeSort_perm ys le).symm)
  exact sorted.eq_of_pairwise (fun a b _ _ => antisymm a b)
    (List.pairwise_mergeSort trans total xs) (List.pairwise_mergeSort trans total ys)

omit [BEq α] [LawfulBEq α] in
theorem mergeSort_pairwise_ne {le : α → α → Bool} {xs : List α}
    (trans : ∀ a b c, le a b = true → le b c = true → le a c = true)
    (total : ∀ a b, (le a b || le b a) = true) (nodup : xs.Nodup) :
    (xs.mergeSort le).Pairwise fun a b => le a b = true ∧ a ≠ b :=
  (List.pairwise_mergeSort trans total xs).and ((List.mergeSort_perm xs le).nodup_iff.2 nodup)

/-! Names in the order of their characters. -/

theorem nameLe_trans (a b c : String) (left : decide (a ≤ b) = true)
    (right : decide (b ≤ c) = true) : decide (a ≤ c) = true :=
  decide_eq_true (String.le_trans (of_decide_eq_true left) (of_decide_eq_true right))

theorem nameLe_total (a b : String) : (decide (a ≤ b) || decide (b ≤ a)) = true := by
  rw [Bool.or_eq_true, decide_eq_true_eq, decide_eq_true_eq]
  exact String.le_total a b

theorem nameLe_antisymm (a b : String) (left : decide (a ≤ b) = true)
    (right : decide (b ≤ a) = true) : a = b :=
  String.le_antisymm (of_decide_eq_true left) (of_decide_eq_true right)

theorem lt_of_nameLe {a b : String} (le : decide (a ≤ b) = true) (other : a ≠ b) : a < b := by
  apply Decidable.byContradiction
  intro more
  exact other (String.le_antisymm (of_decide_eq_true le) (String.not_lt.1 more))

theorem mergeSort_names_strict {xs : List String} (nodup : xs.Nodup) :
    xs.mergeSort.Pairwise (· < ·) :=
  (mergeSort_pairwise_ne nameLe_trans nameLe_total nodup).imp fun h => lt_of_nameLe h.1 h.2

end NamespacePlan.Distinct
