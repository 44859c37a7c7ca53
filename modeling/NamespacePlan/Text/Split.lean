/-!
Cutting a text at a separator. A text with n separators has n + 1 pieces, empty ones included, and
joining the pieces gives the text back.
-/

namespace NamespacePlan.Text

def splitAt (sep : Char) : List Char → List (List Char)
  | [] => [[]]
  | c :: cs =>
    if c = sep then [] :: splitAt sep cs
    else
      match splitAt sep cs with
      | [] => [[c]]
      | w :: ws => (c :: w) :: ws

def joinWith (sep : List Char) : List (List Char) → List Char
  | [] => []
  | [w] => w
  | w :: ws => w ++ sep ++ joinWith sep ws

theorem splitAt_ne_nil (sep : Char) (cs : List Char) : splitAt sep cs ≠ [] := by
  induction cs with
  | nil => simp [splitAt]
  | cons c cs ih =>
    rw [splitAt]
    split
    · simp
    · split <;> simp

theorem joinWith_splitAt (sep : Char) (cs : List Char) : joinWith [sep] (splitAt sep cs) = cs := by
  induction cs with
  | nil => rfl
  | cons c cs ih =>
    rw [splitAt]
    split
    case isTrue h =>
      subst h
      cases hs : splitAt c cs with
      | nil => exact absurd hs (splitAt_ne_nil c cs)
      | cons w ws => rw [hs] at ih; simp [joinWith, ih]
    case isFalse h =>
      cases hs : splitAt sep cs with
      | nil => exact absurd hs (splitAt_ne_nil sep cs)
      | cons w ws =>
        rw [hs] at ih
        cases ws with
        | nil => simpa [joinWith] using ih
        | cons v vs => simpa [joinWith] using ih

end NamespacePlan.Text
