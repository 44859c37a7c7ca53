import NamespacePlan.Proofs.AsciiClasses
import NamespacePlan.Proofs.JsonRoundTrip
import NamespacePlan.Proofs.SegmentNames

/-! Pascal names of ASCII prefixes. A name that is clean stays as it is, and raising keeps the length; so
a Pascal name is its own, and two prefixes get the same one exactly when their cleaned forms differ
in nothing but the case of what is raised. -/
namespace NamespacePlan

namespace Text

theorem toUpper_small {c : Char} (small : c.toNat < 128) : c.toUpper.toNat < 128 := by
  have all : (asciiChars.all fun c => c.toUpper.toNat.blt 128) = true := by decide +kernel
  have below := List.all_eq_true.1 all c (mem_asciiChars small)
  rwa [Nat.blt_eq] at below

section Cases

variable {c d : Char} (small : c.toNat < 128)

include small

theorem toUpper_of_not_isLower (raised : ¬c.isLower) : c.toUpper = c := by
  have same := eq_on_ascii (fun c => if c.isLower then c else c.toUpper) id small (by decide +kernel)
  simpa [raised] using same

theorem isLower_toUpper : c.toUpper.isLower = false :=
  eq_on_ascii (fun c => c.toUpper.isLower) (fun _ => false) small (by decide +kernel)

theorem toUpper_toUpper : c.toUpper.toUpper = c.toUpper :=
  eq_on_ascii (fun c => c.toUpper.toUpper) Char.toUpper small (by decide +kernel)

theorem toUpper_toLower : c.toLower.toUpper = c.toUpper :=
  eq_on_ascii (fun c => c.toLower.toUpper) Char.toUpper small (by decide +kernel)

theorem toLower_toUpper : c.toUpper.toLower = c.toLower :=
  eq_on_ascii (fun c => c.toUpper.toLower) Char.toLower small (by decide +kernel)

theorem toUpper_eq_iff (small' : d.toNat < 128) :
    c.toUpper = d.toUpper ↔ c.toLower = d.toLower := by
  constructor
  · intro same
    rw [← toLower_toUpper small, same, toLower_toUpper small']
  · intro same
    rw [← toUpper_toLower small, same, toUpper_toLower small']

end Cases

end Text

namespace Identifier

open Text
open Json (Ascii)

/-- Equal but for the case of the letters. -/
def SameLetters (cs ds : List Char) : Prop := cs.map Char.toLower = ds.map Char.toLower

instance (cs ds : List Char) : Decidable (SameLetters cs ds) :=
  inferInstanceAs (Decidable (_ = _))

/-- Equal but for the case of the first letter. -/
def SameButFirst : List Char → List Char → Prop
  | c :: cs, d :: ds => c.toLower = d.toLower ∧ cs = ds
  | _, _ => False

instance : ∀ cs ds, Decidable (SameButFirst cs ds)
  | _ :: _, _ :: _ => inferInstanceAs (Decidable (_ ∧ _))
  | [], _ => inferInstanceAs (Decidable False)
  | _ :: _, [] => inferInstanceAs (Decidable False)

/-- Names that are equal but for what is raised: all letters of a short name, the first of a long one. -/
inductive Alike (cs ds : List Char) : Prop where
  | same (eq : cs = ds)
  | short (few : cs.length ≤ 2) (letters : SameLetters cs ds)
  | long (many : 2 < cs.length) (first : SameButFirst cs ds)

theorem alike_iff (cs ds : List Char) : Alike cs ds ↔
    cs = ds ∨ cs.length ≤ 2 ∧ SameLetters cs ds ∨ 2 < cs.length ∧ SameButFirst cs ds := by
  constructor
  · rintro (eq | ⟨few, letters⟩ | ⟨many, first⟩)
    · exact Or.inl eq
    · exact Or.inr (Or.inl ⟨few, letters⟩)
    · exact Or.inr (Or.inr ⟨many, first⟩)
  · rintro (eq | ⟨few, letters⟩ | ⟨many, first⟩)
    · exact .same eq
    · exact .short few letters
    · exact .long many first

instance (cs ds : List Char) : Decidable (Alike cs ds) := decidable_of_iff' _ (alike_iff cs ds)

/-! Cleaning. -/

theorem ascii_cleanChars {cs : List Char} (ascii : Ascii cs) : Ascii (cleanChars cs) := by
  have kept : Ascii (cs.filter staysInName) := fun c member => ascii c (List.mem_filter.1 member).1
  rw [cleanChars_eq]
  split
  · exact kept
  · exact Ascii.append (by decide) kept

/-- In ASCII the clean names are the identifiers. -/
theorem isIdentifier_iff_isClean {cs : List Char} (ascii : Ascii cs) :
    isIdentifier cs = true ↔ isClean cs = true := by
  cases cs with
  | nil => exact Iff.rfl
  | cons c rest =>
    obtain ⟨small, others⟩ := List.forall_mem_cons.1 ascii
    have stays : startsName c = true → staysInName c = true := by
      intro starts
      rw [← isIdentifierContinue_ascii small]
      rw [← isIdentifierStart_ascii small] at starts
      exact isIdentifierContinue_of_start starts
    have continues : (∀ d ∈ rest, isIdentifierContinue d = true) ↔ ∀ d ∈ rest, staysInName d = true :=
      forall₂_congr fun d member => by rw [isIdentifierContinue_ascii (others d member)]
    rw [isIdentifier_cons_iff, isIdentifierStart_ascii small, continues, isClean, Bool.and_eq_true,
      List.all_eq_true, List.forall_mem_cons]
    exact and_congr_right fun starts => (and_iff_right (stays starts)).symm

theorem spellsIdentifier_ascii {cs : List Char} (ascii : Ascii cs) : SpellsIdentifier cs := by
  rw [← isIdentifier_cleanChars_iff, isIdentifier_iff_isClean (ascii_cleanChars ascii)]
  exact isClean_cleanChars cs

/-! Raising. -/

/-- The first character raised, and with it the second one of a short name. -/
def raised : List Char → List Char
  | [] => []
  | c :: rest => c.toUpper :: if rest.length ≤ 1 then rest.map Char.toUpper else rest

theorem upper_ascii {cs : List Char} (ascii : Ascii cs) : upper cs = cs.map Char.toUpper := by
  induction cs with
  | nil => rfl
  | cons c cs ih =>
    obtain ⟨small, others⟩ := List.forall_mem_cons.1 ascii
    have tail : upper cs = cs.map Char.toUpper := ih others
    rw [upper, List.flatMap_cons, upperChar_ascii small, List.map_cons, ← tail]
    rfl

theorem pascalChars_ascii {cs : List Char} (ascii : Ascii cs) :
    pascalChars cs = raised (cleanChars cs) := by
  have kept := ascii_cleanChars ascii
  unfold pascalChars
  cases cleaned : cleanChars cs with
  | nil => rfl
  | cons c rest =>
    rw [cleaned] at kept
    have small : c.toNat < 128 := kept c List.mem_cons_self
    dsimp only [raised]
    by_cases short : rest.length ≤ 1
    · rw [if_pos short, if_pos short, upper_ascii kept, List.map_cons]
    · rw [if_neg short, if_neg short, isLowercase_ascii small, upperChar_ascii small]
      split
      case isTrue => rfl
      case isFalse raisedAlready => rw [toUpper_of_not_isLower small raisedAlready]

theorem toList_pascal_ascii {s : String} (ascii : Ascii s.toList) :
    (pascal s).toList = raised (cleanChars s.toList) := by
  rw [toList_pascal, pascalChars_ascii ascii]

theorem mem_raised {cs : List Char} {c : Char} (member : c ∈ raised cs) :
    ∃ d ∈ cs, c = d ∨ c = d.toUpper := by
  cases cs with
  | nil => cases member
  | cons d rest =>
    rcases List.mem_cons.1 member with rfl | inside
    · exact ⟨d, List.mem_cons_self, Or.inr rfl⟩
    · split at inside
      · obtain ⟨e, here, rfl⟩ := List.mem_map.1 inside
        exact ⟨e, List.mem_cons_of_mem d here, Or.inr rfl⟩
      · exact ⟨c, List.mem_cons_of_mem d inside, Or.inl rfl⟩

theorem ascii_raised {cs : List Char} (ascii : Ascii cs) : Ascii (raised cs) := by
  intro c member
  obtain ⟨d, here, rfl | rfl⟩ := mem_raised member
  · exact ascii c here
  · exact toUpper_small (ascii d here)

theorem length_raised (cs : List Char) : (raised cs).length = cs.length := by
  cases cs with
  | nil => rfl
  | cons c rest =>
    rw [raised, List.length_cons, List.length_cons]
    split
    · rw [List.length_map]
    · rfl

theorem raised_raised {cs : List Char} (ascii : Ascii cs) : raised (raised cs) = raised cs := by
  cases cs with
  | nil => rfl
  | cons c rest =>
    obtain ⟨small, others⟩ := List.forall_mem_cons.1 ascii
    by_cases short : rest.length ≤ 1
    · have again : (rest.map Char.toUpper).map Char.toUpper = rest.map Char.toUpper := by
        rw [List.map_map]
        exact List.map_congr_left fun d member => toUpper_toUpper (others d member)
      simp only [raised, if_pos short, List.length_map, again, toUpper_toUpper small]
    · simp only [raised, if_neg short, toUpper_toUpper small]

theorem map_toUpper_eq_iff {cs ds : List Char} (left : Ascii cs) (right : Ascii ds) :
    cs.map Char.toUpper = ds.map Char.toUpper ↔ SameLetters cs ds := by
  induction cs generalizing ds with
  | nil => cases ds <;> simp [SameLetters]
  | cons c cs ih =>
    cases ds with
    | nil => simp [SameLetters]
    | cons d ds =>
      obtain ⟨small, others⟩ := List.forall_mem_cons.1 left
      obtain ⟨small', others'⟩ := List.forall_mem_cons.1 right
      have tails : cs.map Char.toUpper = ds.map Char.toUpper ↔
          cs.map Char.toLower = ds.map Char.toLower := ih others others'
      rw [SameLetters, List.map_cons, List.map_cons, List.map_cons, List.map_cons, List.cons.injEq,
        List.cons.injEq, toUpper_eq_iff small small', tails]

/-- Names of one length are raised to the same name when they are alike. -/
theorem raised_eq_iff {cs ds : List Char} (left : Ascii cs) (right : Ascii ds)
    (length : cs.length = ds.length) : raised cs = raised ds ↔ Alike cs ds := by
  rw [alike_iff]
  cases cs with
  | nil =>
    have empty : ds = [] := List.length_eq_zero_iff.1 length.symm
    simp [empty]
  | cons c cs =>
    cases ds with
    | nil => cases length
    | cons d ds =>
      have tails : cs.length = ds.length := Nat.succ.inj length
      by_cases short : cs.length ≤ 1
      · have few : (c :: cs).length ≤ 2 := Nat.succ_le_succ short
        have whole := map_toUpper_eq_iff left right
        rw [List.map_cons, List.map_cons] at whole
        rw [raised, raised, if_pos short, if_pos (tails ▸ short), whole]
        constructor
        · exact fun letters => Or.inr (Or.inl ⟨few, letters⟩)
        · rintro (same | ⟨_, letters⟩ | ⟨many, _⟩)
          · exact congrArg (List.map Char.toLower) same
          · exact letters
          · omega
      · have many : 2 < (c :: cs).length := by rw [List.length_cons]; omega
        have first := toUpper_eq_iff (left c List.mem_cons_self) (right d List.mem_cons_self)
        rw [raised, raised, if_neg short, if_neg (tails ▸ short), List.cons.injEq, first]
        constructor
        · exact fun first => Or.inr (Or.inr ⟨many, first⟩)
        · rintro (same | ⟨few, _⟩ | ⟨_, first⟩)
          · exact ⟨congrArg Char.toLower (List.cons.inj same).1, (List.cons.inj same).2⟩
          · omega
          · exact first

/-! Names. -/

/-- An ASCII identifier that begins with no lowercase letter. -/
structure PascalName (name : String) : Prop where
  nonempty : name ≠ ""
  ascii : Ascii name.toList
  identifier : isIdentifier name.toList = true
  raised : ∀ c ∈ name.toList.head?, isLowercase c = false

theorem pascalName_pascal {s : String} (ascii : Ascii s.toList) : PascalName (pascal s) := by
  have chars := toList_pascal_ascii ascii
  have kept : Ascii (cleanChars s.toList) := ascii_cleanChars ascii
  refine ⟨pascal_ne_empty s, ?_, ?_, ?_⟩
  · rw [chars]
    exact ascii_raised kept
  · exact (isIdentifier_pascal_iff s).2 (spellsIdentifier_ascii ascii)
  · rw [chars]
    cases cleaned : cleanChars s.toList with
    | nil => simp [raised]
    | cons c rest =>
      have small : c.toNat < 128 := kept c (cleaned ▸ List.mem_cons_self)
      rintro d first
      obtain rfl : c.toUpper = d := Option.some.inj first
      rw [isLowercase_ascii (toUpper_small small), isLower_toUpper small]

theorem pascal_pascal {s : String} (ascii : Ascii s.toList) : pascal (pascal s) = pascal s := by
  have name := pascalName_pascal ascii
  have clean : cleanChars (pascal s).toList = (pascal s).toList :=
    cleanChars_of_isClean ((isIdentifier_iff_isClean name.ascii).1 name.identifier)
  apply String.toList_inj.1
  rw [toList_pascal_ascii name.ascii, clean, toList_pascal_ascii ascii,
    raised_raised (ascii_cleanChars ascii)]

theorem pascal_eq_iff {p q : String} (left : Ascii p.toList) (right : Ascii q.toList) :
    pascal p = pascal q ↔
      (clean p).toList.length = (clean q).toList.length ∧ Alike (clean p).toList (clean q).toList := by
  have left' := ascii_cleanChars left
  have right' := ascii_cleanChars right
  rw [← String.toList_inj, toList_pascal_ascii left, toList_pascal_ascii right, toList_clean,
    toList_clean]
  constructor
  · intro same
    have length := congrArg List.length same
    rw [length_raised, length_raised] at length
    exact ⟨length, (raised_eq_iff left' right' length).1 same⟩
  · exact fun both => (raised_eq_iff left' right' both.1).2 both.2

/-- The Pascal name of an ASCII prefix is an identifier that begins with no lowercase letter, and is its
own Pascal name. Two prefixes share one exactly when their cleaned forms are of one length and equal
but for the case of what is raised. -/
theorem pascal_ascii_exact :
    (∀ s : String, Ascii s.toList → PascalName (pascal s) ∧ pascal (pascal s) = pascal s) ∧
    ∀ p q : String, Ascii p.toList → Ascii q.toList →
      (pascal p = pascal q ↔ (clean p).toList.length = (clean q).toList.length ∧
        Alike (clean p).toList (clean q).toList) :=
  ⟨fun _ ascii => ⟨pascalName_pascal ascii, pascal_pascal ascii⟩,
    fun _ _ left right => pascal_eq_iff left right⟩

theorem pascal_ascii_collisions :
    PascalName (pascal "1.x") ∧ pascal (pascal "1.x") = pascal "1.x" ∧
      pascal "d-s" = pascal "Ds" ∧ pascal "cbc" = pascal "Cb-c" ∧ pascal "cbc" ≠ pascal "cbC" := by
  obtain ⟨names, collide⟩ := pascal_ascii_exact
  obtain ⟨name, again⟩ := names "1.x" (by decide)
  refine ⟨name, again, (collide "d-s" "Ds" (by decide) (by decide)).2 ?_,
    (collide "cbc" "Cb-c" (by decide) (by decide)).2 ?_,
    mt (collide "cbc" "cbC" (by decide) (by decide)).1 ?_⟩
  · decide +kernel
  · decide +kernel
  · decide +kernel

end Identifier

end NamespacePlan
