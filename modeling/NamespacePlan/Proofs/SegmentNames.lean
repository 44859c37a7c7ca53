import NamespacePlan.Proofs.CaseMapping

/-! The segment that a prefix becomes. Cleaning keeps name characters alone and Pascal case raises
some of them, so a segment is never empty and holds no dot; it is an identifier exactly when what the
cleaning keeps may stand in one. -/
namespace NamespacePlan.Identifier

open Text

theorem isIdentifier_cons_iff (c : Char) (cs : List Char) :
    isIdentifier (c :: cs) = true ↔
      isIdentifierStart c = true ∧ ∀ d ∈ cs, isIdentifierContinue d = true := by
  rw [isIdentifier, Bool.and_eq_true, List.all_eq_true]

theorem continues_of_isIdentifier {cs : List Char} (name : isIdentifier cs = true) :
    ∀ d ∈ cs, isIdentifierContinue d = true := by
  cases cs with
  | nil => cases name
  | cons c cs =>
    rw [isIdentifier_cons_iff] at name
    exact List.forall_mem_cons.2 ⟨isIdentifierContinue_of_start name.1, name.2⟩

theorem isIdentifier_append_iff {cs : List Char} (name : isIdentifier cs = true)
    (rest : List Char) :
    isIdentifier (cs ++ rest) = true ↔ ∀ d ∈ rest, isIdentifierContinue d = true := by
  cases cs with
  | nil => cases name
  | cons c cs =>
    rw [isIdentifier_cons_iff] at name
    rw [List.cons_append, isIdentifier_cons_iff, List.forall_mem_append]
    constructor
    · exact fun whole => whole.2.2
    · exact fun goes_on => ⟨name.1, name.2, goes_on⟩

/-! Cleaning. -/

theorem cleanChars_eq (cs : List Char) :
    cleanChars cs =
      if (cs.filter staysInName).head?.any startsName then cs.filter staysInName
      else "Item".toList ++ cs.filter staysInName := by
  unfold cleanChars
  cases cs.filter staysInName with
  | nil => rfl
  | cons c rest => rfl

theorem isClean_append {cs rest : List Char} (clean : isClean cs = true)
    (kept : ∀ c ∈ rest, staysInName c = true) : isClean (cs ++ rest) = true := by
  cases cs with
  | nil => cases clean
  | cons c cs =>
    simp only [isClean, List.cons_append, Bool.and_eq_true, List.all_eq_true,
      List.forall_mem_cons, List.forall_mem_append] at clean ⊢
    exact ⟨clean.1, clean.2.1, clean.2.2, kept⟩

theorem isClean_iff (cs : List Char) : isClean cs = true ↔
    cs ≠ [] ∧ (∀ c ∈ cs, staysInName c = true) ∧ ∀ c ∈ cs.head?, startsName c = true := by
  cases cs with
  | nil => simp [isClean]
  | cons c rest =>
    rw [isClean, Bool.and_eq_true, List.all_eq_true]
    simp only [ne_eq, List.cons_ne_nil, not_false_eq_true, true_and, List.head?_cons,
      Option.mem_some_iff, forall_eq']
    exact and_comm

theorem isClean_cleanChars (cs : List Char) : isClean (cleanChars cs) = true := by
  have kept : ∀ c ∈ cs.filter staysInName, staysInName c = true := fun c member =>
    (List.mem_filter.1 member).2
  have item : isClean "Item".toList = true := by decide
  rw [cleanChars_eq]
  split
  case isTrue front =>
    obtain ⟨c, head, starts⟩ := (Option.any_eq_true _ _).1 front
    obtain ⟨rest, whole⟩ := List.head?_eq_some_iff.1 head
    rw [whole] at kept ⊢
    rw [isClean, starts, Bool.true_and, List.all_eq_true]
    exact kept
  case isFalse => exact isClean_append item kept

theorem cleanChars_of_isClean {cs : List Char} (clean : isClean cs = true) : cleanChars cs = cs := by
  have whole : cs.filter staysInName = cs := List.filter_eq_self.2 ((isClean_iff cs).1 clean).2.1
  rw [cleanChars_eq, whole]
  cases cs with
  | nil => cases clean
  | cons c rest =>
    rw [isClean, Bool.and_eq_true] at clean
    rw [List.head?_cons, Option.any_some, if_pos clean.1]

/-- All that cleaning keeps of a text may stand in an identifier, and a letter that it leaves in
front may start one. -/
structure SpellsIdentifier (cs : List Char) : Prop where
  continues : ∀ c ∈ cs, staysInName c = true → isIdentifierContinue c = true
  starts : ∀ c ∈ (cs.filter staysInName).head?, isLetter c = true → isIdentifierStart c = true

theorem isIdentifier_cleanChars_iff (cs : List Char) :
    isIdentifier (cleanChars cs) = true ↔ SpellsIdentifier cs := by
  have kept : (∀ c ∈ cs.filter staysInName, isIdentifierContinue c = true) ↔
      ∀ c ∈ cs, staysInName c = true → isIdentifierContinue c = true := by
    simp only [List.mem_filter, and_imp]
  have item : isIdentifier "Item".toList = true := by decide
  have underscore : isIdentifierStart '_' = true := rfl
  rw [cleanChars_eq]
  split
  case isTrue front =>
    obtain ⟨c, head, starts⟩ := (Option.any_eq_true _ _).1 front
    obtain ⟨rest, whole⟩ := List.head?_eq_some_iff.1 head
    simp only [startsName, Bool.or_eq_true, beq_iff_eq] at starts
    constructor
    · intro name
      refine ⟨kept.1 (continues_of_isIdentifier name), ?_⟩
      rw [whole] at name ⊢
      rintro d found -
      cases found
      exact ((isIdentifier_cons_iff c rest).1 name).1
    · intro spells
      have goes_on := kept.2 spells.continues
      have start : isIdentifierStart c = true := by
        rcases starts with letter | rfl
        · exact spells.starts c head letter
        · exact underscore
      rw [whole] at goes_on ⊢
      exact (isIdentifier_cons_iff c rest).2 ⟨start, (List.forall_mem_cons.1 goes_on).2⟩
  case isFalse front =>
    rw [isIdentifier_append_iff item, kept]
    constructor
    · intro continues
      refine ⟨continues, fun c head letter => absurd ?_ front⟩
      exact (Option.any_eq_true _ _).2 ⟨c, head, by rw [startsName, letter, Bool.true_or]⟩
    · exact fun spells => spells.continues

instance (cs : List Char) : Decidable (SpellsIdentifier cs) :=
  decidable_of_iff _ (isIdentifier_cleanChars_iff cs)

/-! Raising. -/

/-- The second text is the first one with some of its characters raised. -/
inductive Raises : List Char → List Char → Prop where
  | nil : Raises [] []
  | keep (c : Char) {cs out : List Char} (rest : Raises cs out) : Raises (c :: cs) (c :: out)
  | raise (c : Char) {cs out : List Char} (rest : Raises cs out) :
      Raises (c :: cs) (upperChar c ++ out)

namespace Raises

theorem refl (cs : List Char) : Raises cs cs := by
  induction cs with
  | nil => exact .nil
  | cons c cs ih => exact .keep c ih

theorem upper (cs : List Char) : Raises cs (upper cs) := by
  induction cs with
  | nil => exact .nil
  | cons c cs ih =>
    rw [Text.upper, List.flatMap_cons]
    exact .raise c ih

variable {cs out : List Char}

theorem ne_nil (raised : Raises cs out) (kept : ∀ c ∈ cs, staysInName c = true) (some : cs ≠ []) :
    out ≠ [] := by
  cases raised with
  | nil => exact some
  | keep c rest => exact List.cons_ne_nil c _
  | raise c rest =>
    rcases upperChar_kept (kept c List.mem_cons_self) with same | ⟨_, name⟩
    · rw [same]
      exact List.cons_ne_nil c _
    · intro empty
      rw [(List.append_eq_nil_iff.1 empty).1] at name
      cases name

theorem continues_iff (raised : Raises cs out) (kept : ∀ c ∈ cs, staysInName c = true) :
    (∀ d ∈ out, isIdentifierContinue d = true) ↔ ∀ c ∈ cs, isIdentifierContinue c = true := by
  induction raised with
  | nil => exact Iff.rfl
  | keep c rest ih =>
    rw [List.forall_mem_cons, List.forall_mem_cons, ih (List.forall_mem_cons.1 kept).2]
  | raise c rest ih =>
    rw [List.forall_mem_append, List.forall_mem_cons, ih (List.forall_mem_cons.1 kept).2]
    rcases upperChar_kept (kept c List.mem_cons_self) with same | ⟨start, name⟩
    · rw [same, List.forall_mem_singleton]
    · -- both the character and what it becomes may stand in an identifier
      simp only [isIdentifierContinue_of_start start, true_and, and_iff_right_iff_imp]
      exact fun _ => continues_of_isIdentifier name

theorem isIdentifier_iff (raised : Raises cs out) (kept : ∀ c ∈ cs, staysInName c = true) :
    isIdentifier out = true ↔ isIdentifier cs = true := by
  cases raised with
  | nil => exact Iff.rfl
  | keep c rest =>
    rw [isIdentifier_cons_iff, isIdentifier_cons_iff,
      rest.continues_iff (List.forall_mem_cons.1 kept).2]
  | raise c rest =>
    have tail := rest.continues_iff (List.forall_mem_cons.1 kept).2
    rcases upperChar_kept (kept c List.mem_cons_self) with same | ⟨start, name⟩
    · rw [same, List.singleton_append, isIdentifier_cons_iff, isIdentifier_cons_iff, tail]
    · rw [isIdentifier_append_iff name, isIdentifier_cons_iff, tail]
      exact (and_iff_right start).symm

theorem dotless (raised : Raises cs out) (kept : ∀ c ∈ cs, staysInName c = true) :
    '.' ∉ out := by
  have dropped : staysInName '.' = false := by decide +kernel
  have refused : isIdentifierContinue '.' = false := by decide +kernel
  have plain : ∀ c, staysInName c = true → '.' ≠ c := by
    rintro c stays rfl
    exact Bool.false_ne_true (dropped.symm.trans stays)
  induction raised with
  | nil => exact List.not_mem_nil
  | keep c rest ih =>
    obtain ⟨stays, others⟩ := List.forall_mem_cons.1 kept
    rw [List.mem_cons, not_or]
    exact ⟨plain c stays, ih others⟩
  | raise c rest ih =>
    obtain ⟨stays, others⟩ := List.forall_mem_cons.1 kept
    rw [List.mem_append, not_or]
    refine ⟨?_, ih others⟩
    rcases upperChar_kept stays with same | ⟨_, name⟩
    · rw [same, List.mem_singleton]
      exact plain c stays
    · intro member
      exact Bool.false_ne_true (refused.symm.trans (continues_of_isIdentifier name '.' member))

end Raises

theorem raises_pascalChars (cs : List Char) : Raises (cleanChars cs) (pascalChars cs) := by
  unfold pascalChars
  cases cleanChars cs with
  | nil => exact .nil
  | cons c rest =>
    dsimp only
    split
    · exact .upper (c :: rest)
    · split
      · exact .raise c (.refl rest)
      · exact .refl (c :: rest)

/-! The segment. -/

theorem kept_cleanChars (cs : List Char) : ∀ c ∈ cleanChars cs, staysInName c = true :=
  ((isClean_iff _).1 (isClean_cleanChars cs)).2.1

theorem toList_clean (s : String) : (clean s).toList = cleanChars s.toList := String.toList_ofList

theorem toList_pascal (s : String) : (pascal s).toList = pascalChars s.toList :=
  String.toList_ofList

theorem pascal_ne_empty (s : String) : pascal s ≠ "" := by
  intro empty
  have nothing : pascalChars s.toList = [] := by rw [← toList_pascal, empty]; rfl
  exact (raises_pascalChars s.toList).ne_nil (kept_cleanChars _)
    ((isClean_iff _).1 (isClean_cleanChars s.toList)).1 nothing

theorem pascal_dotless (s : String) : '.' ∉ (pascal s).toList := by
  rw [toList_pascal]
  exact (raises_pascalChars s.toList).dotless (kept_cleanChars _)

theorem isIdentifier_pascal_iff (s : String) :
    isIdentifier (pascal s).toList = true ↔ SpellsIdentifier s.toList := by
  rw [toList_pascal, (raises_pascalChars s.toList).isIdentifier_iff (kept_cleanChars _),
    isIdentifier_cleanChars_iff]

end NamespacePlan.Identifier
