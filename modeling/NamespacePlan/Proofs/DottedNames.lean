import NamespacePlan.Proofs.QualifiedGraph

/-! The segments of a dotted name. A name below a base has the segments of the base and those of the
rest behind them; when the rest has no dot, the whole name tells both. -/
namespace NamespacePlan

namespace Text

theorem splitAt_append (sep : Char) (xs ys : List Char) :
    splitAt sep (xs ++ sep :: ys) = splitAt sep xs ++ splitAt sep ys := by
  induction xs with
  | nil => simp [splitAt]
  | cons c cs ih =>
    rw [List.cons_append, splitAt, splitAt]
    by_cases cut : c = sep
    · rw [if_pos cut, if_pos cut, ih, List.cons_append]
    · rw [if_neg cut, if_neg cut, ih]
      cases pieces : splitAt sep cs with
      | nil => exact absurd pieces (splitAt_ne_nil sep cs)
      | cons w ws => rfl

theorem splitAt_of_not_mem {sep : Char} {cs : List Char} (absent : sep ∉ cs) :
    splitAt sep cs = [cs] := by
  induction cs with
  | nil => rfl
  | cons c cs ih =>
    rw [List.mem_cons, not_or] at absent
    rw [splitAt, if_neg (Ne.symm absent.1), ih absent.2]

end Text

namespace Identifier

open Text

def segments (name : String) : List (List Char) := splitAt '.' name.toList

theorem segments_injective {x y : String} (same : segments x = segments y) : x = y := by
  apply String.toList_inj.1
  rw [← joinWith_splitAt '.' x.toList, ← joinWith_splitAt '.' y.toList]
  exact congrArg (joinWith ['.']) same

theorem toList_below (base s : String) :
    (base ++ "." ++ s).toList = base.toList ++ '.' :: s.toList := by
  rw [String.toList_append, String.toList_append, List.append_assoc]
  rfl

theorem segments_below (base s : String) :
    segments (base ++ "." ++ s) = segments base ++ segments s := by
  rw [segments, toList_below, splitAt_append]
  rfl

theorem segments_of_dotless {s : String} (dotless : '.' ∉ s.toList) : segments s = [s.toList] :=
  splitAt_of_not_mem dotless

theorem below_inj {base other s t : String} (left : '.' ∉ s.toList) (right : '.' ∉ t.toList)
    (same : base ++ "." ++ s = other ++ "." ++ t) : base = other ∧ s = t := by
  have pieces := congrArg segments same
  rw [segments_below, segments_below, segments_of_dotless left, segments_of_dotless right] at pieces
  obtain ⟨front, last⟩ := List.append_inj' pieces rfl
  exact ⟨segments_injective front, String.toList_inj.1 (List.cons.inj last).1⟩

theorem isDotted_below (base s : String) :
    isDotted (base ++ "." ++ s) = true ↔ isDotted base = true ∧ isDotted s = true := by
  have whole : isDotted (base ++ "." ++ s) = (segments (base ++ "." ++ s)).all isIdentifier := rfl
  rw [whole, segments_below, List.all_append, Bool.and_eq_true]
  rfl

theorem isDotted_of_dotless {s : String} (dotless : '.' ∉ s.toList) :
    isDotted s = isIdentifier s.toList := by
  have whole : isDotted s = (segments s).all isIdentifier := rfl
  rw [whole, segments_of_dotless dotless, List.all_cons, List.all_nil, Bool.and_true]

/-- The name ends in a dot and the key. -/
def LiesAt (name key : String) : Prop := ∃ base, name = base ++ "." ++ key

theorem liesAt_below_iff {base s key : String} (left : '.' ∉ s.toList) (right : '.' ∉ key.toList) :
    LiesAt (base ++ "." ++ s) key ↔ s = key := by
  constructor
  · rintro ⟨other, same⟩
    exact (below_inj left right same).2
  · rintro rfl
    exact ⟨base, rfl⟩

/-- A name below a root lies at a key when it is that sub-namespace of the root, or when it is the
root and the root lies there. -/
theorem liesAt_qualify_iff {root key k : String} (left : '.' ∉ key.toList)
    (right : '.' ∉ k.toList) :
    LiesAt (qualify root key) k ↔
      qualify root key = root ++ "." ++ k ∨ qualify root key = root ∧ LiesAt root k := by
  by_cases empty : key = ""
  · have same : qualify root key = root := if_pos empty
    rw [same]
    constructor
    · exact fun lies => Or.inr ⟨rfl, lies⟩
    · rintro (here | ⟨_, lies⟩)
      · exact absurd here.symm (below_ne_root root k)
      · exact lies
  · rw [qualify_of_ne_empty empty, liesAt_below_iff left right]
    constructor
    · rintro rfl
      exact Or.inl rfl
    · rintro (same | ⟨same, _⟩)
      · exact below_injective same
      · exact absurd same (below_ne_root root key)

end Identifier

end NamespacePlan
