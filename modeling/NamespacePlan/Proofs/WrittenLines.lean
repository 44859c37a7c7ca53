import NamespacePlan.Proofs.DatumValues
import NamespacePlan.Proofs.ScalarTokens

/-! The characters of what is written: ASCII that is seen, and line ends where a text is folded or has
one itself. -/
namespace NamespacePlan.Yaml

open Style

/-- Only characters that stay on their line, and line ends only where there may be some. -/
def Lines (broken : Prop) (cs : List Char) : Prop :=
  ∀ c ∈ cs, isInline c = true ∨ c = '\n' ∧ broken

section Lines

variable {broken : Prop} {c : Char} {xs ys : List Char}

theorem Lines.append (left : Lines broken xs) (right : Lines broken ys) : Lines broken (xs ++ ys) := by
  intro c member
  rcases List.mem_append.1 member with h | h
  · exact left c h
  · exact right c h

theorem Lines.of_inline (inline : Inline xs) : Lines broken xs :=
  fun c member => Or.inl (inline c member)

theorem lines_nil : Lines broken [] := .of_inline inline_nil

theorem Lines.cons (head : isInline c = true) (tail : Lines broken xs) : Lines broken (c :: xs) :=
  (Lines.of_inline (.cons head inline_nil)).append tail

theorem Lines.newline (allowed : broken) (tail : Lines broken xs) : Lines broken ('\n' :: xs) := by
  intro c member
  rcases List.mem_cons.1 member with rfl | h
  · exact Or.inr ⟨rfl, allowed⟩
  · exact tail c h

theorem Lines.inline (lines : Lines False xs) : Inline xs :=
  fun c member => (lines c member).elim id fun h => h.2.elim

end Lines

namespace Scalar

variable {m : Margin} {broken : Prop}

theorem lines_newLine (folded : broken) : Lines broken (newLine m) :=
  .newline folded (.of_inline (inline_spaces _))

theorem lines_plain (folded : m.folds = true → broken) (col : Nat) (afterSpace : Bool)
    {cs : List Char} (inline : Inline cs) : Lines broken (plain m col afterSpace cs) := by
  induction cs generalizing col afterSpace with
  | nil => exact lines_nil
  | cons c cs ih =>
    rw [plain]
    split
    · next fold =>
      rw [Bool.and_eq_true, Bool.and_eq_true] at fold
      exact (lines_newLine (folded fold.1.1)).append (ih _ _ inline.tail)
    · exact .cons inline.head (ih _ _ inline.tail)

theorem lines_single (folded : m.folds = true → broken) (first : Bool) (col : Nat) (before : Char)
    {cs : List Char} (lines : Lines broken cs) : Lines broken (single m first col before cs) := by
  induction cs generalizing first col before with
  | nil => exact lines_nil
  | cons c cs ih =>
    have tail : Lines broken cs := fun x member => lines x (List.mem_cons_of_mem c member)
    rw [single]
    split
    · next line =>
      have allowed : broken := by
        rcases lines c List.mem_cons_self with inline | h
        · rw [line] at inline
          cases inline
        · exact h.2
      have lead : Lines broken (if before = '\n' then [] else ['\n']) := by
        split
        · exact lines_nil
        · exact .newline allowed lines_nil
      have close : Lines broken (if cs.head? = some '\n' then [] else List.replicate m.indent ' ') := by
        split
        · exact lines_nil
        · exact .of_inline (inline_spaces _)
      exact (lead.append (Lines.newline allowed close)).append (ih _ _ _ tail)
    · next line =>
      have own : isInline c = true := (lines c List.mem_cons_self).resolve_right fun h => line h.1
      split
      · exact .cons (by decide) (.cons (by decide) (ih _ _ _ tail))
      · split
        · next fold =>
          simp only [Bool.and_eq_true] at fold
          exact (lines_newLine (folded fold.1.1.1)).append (ih _ _ _ tail)
        · exact .cons own (ih _ _ _ tail)

theorem lines_escapedLine (folded : broken) (rest : List Char) :
    Lines broken (escapedLine m rest).1 := by
  have line : Lines broken ('\\' :: newLine m) := .cons (by decide) (lines_newLine folded)
  rw [escapedLine]
  split
  · exact line.append (.cons (by decide) lines_nil)
  · exact line

theorem lines_escape (c : Char) : Lines broken (escape c) := by
  obtain ⟨es, written, inline, _⟩ := ScalarText.escape_written c
  rw [written]
  exact .cons (by decide) (.of_inline inline)

theorem lines_double (folded : m.folds = true → broken) (first afterFold : Bool) (col : Nat)
    (cs : List Char) : Lines broken (double m first afterFold col cs) := by
  induction cs generalizing first afterFold col with
  | nil => exact lines_nil
  | cons c cs ih =>
    rw [double]
    split
    · dsimp only
      split
      · next fold =>
        simp only [Bool.and_eq_true] at fold
        exact ((lines_escape c).append (lines_escapedLine (folded fold.1.1.1) cs)).append (ih _ _ _)
      · exact (lines_escape c).append (ih _ _ _)
    · next plain =>
      have own := (ScalarText.not_isEscaped (by simpa using plain)).2.2
      split
      · next fold =>
        simp only [Bool.and_eq_true] at fold
        exact (lines_escapedLine (folded fold.1.1.1.1) _).append (.cons own (ih _ _ _))
      · exact .cons own (ih _ _ _)

theorem lines_write {style : Style} {cs : List Char} (folded : m.folds = true → broken)
    (plain : style = .plain → Inline cs) (single : style = .single → Lines broken cs) (col : Nat) :
    Lines broken (write m style col cs) := by
  cases style with
  | plain => exact lines_plain folded col false (plain rfl)
  | single =>
    exact (Lines.cons (by decide) (lines_single folded true (col + 1) '\x00' (single rfl))).append
      (.cons (by decide) lines_nil)
  | double =>
    exact (Lines.cons (by decide) (lines_double folded true true (col + 1) cs)).append
      (.cons (by decide) lines_nil)

end Scalar

theorem lines_of_allowsSingle {cs : List Char} (allowed : allowsSingle cs = true) : Lines True cs := by
  intro c member
  rw [allowsSingle, Bool.and_eq_true] at allowed
  have shown := List.all_eq_true.1 allowed.1 c member
  rw [isShown_eq, Bool.or_eq_true, beq_iff_eq] at shown
  exact shown.elim (fun line => Or.inr ⟨line, trivial⟩) Or.inl

/-- The style of a text is one that its characters allow. -/
theorem lines_of_style (key : Bool) (cs : List Char) :
    (Style.of key cs = .plain → Inline cs) ∧ (Style.of key cs = .single → Lines True cs) := by
  rcases Lexer.style_cases key cs with ⟨plain, shown, _⟩ | ⟨quoted, _, single⟩
  · refine ⟨fun _ => (ScalarText.begins_of_allowsPlain shown).2.1.inline, fun h => ?_⟩
    rw [plain] at h
    cases h
  · exact ⟨fun h => absurd h quoted, fun h => lines_of_allowsSingle (single h)⟩

theorem inline_writeKey {cs : List Char} (simple : isSimpleKey cs = true) : Inline (writeKey cs) := by
  obtain ⟨plain, single⟩ := lines_of_style true cs
  refine Lines.inline
    (Scalar.lines_write (fun folds => absurd folds Bool.false_ne_true) plain (fun h => ?_) 0)
  intro c member
  refine (single h c member).imp_right fun line => ⟨line.1, ?_⟩
  simp only [isSimpleKey, Bool.and_eq_true, Bool.not_eq_true'] at simple
  exact List.any_eq_false.1 simple.1.2 c member (by rw [line.1]; rfl)

theorem lines_writeText (indent col : Nat) (s : String) : Lines True (writeText indent col s) :=
  have styles := lines_of_style false s.toList
  Scalar.lines_write (fun _ => trivial) styles.1 styles.2 col

/-! Whole documents. -/

theorem lines_openField (indent : Nat) (k : String) : Lines True (openField indent k).1 := by
  rw [openField]
  split
  · next simple => exact .of_inline ((inline_writeKey simple).append (.cons (by decide) inline_nil))
  · exact (((Lines.cons (by decide) (.cons (by decide) (lines_writeText _ _ k))).append
      (.newline trivial (.of_inline (inline_spaces indent)))).append (.cons (by decide) lines_nil))

theorem lines_lead (indent : Nat) (place : Place) : Lines True (place.lead indent) := by
  cases place with
  | key col => exact .newline trivial (.of_inline (inline_spaces indent))
  | indicator => exact .cons (by decide) lines_nil

theorem lines_writeItems (indent : Nat) {ds : List Datum}
    (each : ∀ d ∈ ds, ∀ indent place, Lines True (writeValue indent place d)) :
    Lines True (writeItems indent ds) := by
  induction ds with
  | nil => exact lines_nil
  | cons d ds ih =>
    have rest := ih fun e member => each e (List.mem_cons_of_mem d member)
    rw [writeItems]
    exact ((Lines.newline trivial (.of_inline (inline_spaces indent))).append
      (.cons (by decide) (each d List.mem_cons_self indent .indicator))).append rest

theorem lines_writeFields (indent : Nat) {fs : List (String × Datum)}
    (each : ∀ f ∈ fs, ∀ indent place, Lines True (writeValue indent place f.2)) :
    Lines True (writeFields indent fs) := by
  induction fs with
  | nil => exact lines_nil
  | cons f fs ih =>
    obtain ⟨k, d⟩ := f
    have rest := ih fun e member => each e (List.mem_cons_of_mem _ member)
    rw [writeFields]
    exact (((Lines.newline trivial (.of_inline (inline_spaces indent))).append
      (lines_openField indent k)).append (each _ List.mem_cons_self indent _)).append rest

theorem lines_writeValue (d : Datum) : ∀ indent place, Lines True (writeValue indent place d) := by
  induction d using Datum.induct with
  | null =>
    have word : Inline " null".toList := by decide
    exact fun _ _ => .of_inline word
  | bool b =>
    have word : Inline (' ' :: writeBool b) := by cases b <;> decide
    exact fun _ _ => .of_inline word
  | text s => exact fun _ _ => .cons (by decide) (lines_writeText _ _ s)
  | list ds each =>
    intro indent place
    cases ds with
    | nil =>
      have brackets : Inline " []".toList := by decide
      exact .of_inline brackets
    | cons d ds =>
      have items := lines_writeItems (place.listIndent indent) fun e member =>
        each e (List.mem_cons_of_mem d member)
      rw [writeValue]
      exact ((lines_lead _ place).append
        (.cons (by decide) (each d List.mem_cons_self _ .indicator))).append items
  | object fs each =>
    intro indent place
    cases fs with
    | nil =>
      have braces : Inline [' ', '\x7b', '\x7d'] := by decide
      exact .of_inline braces
    | cons f fs =>
      obtain ⟨k, d⟩ := f
      have fields := lines_writeFields (indent + 2) fun g member =>
        each g (List.mem_cons_of_mem _ member)
      rw [writeValue]
      exact (((lines_lead _ place).append (lines_openField _ k)).append
        (each _ List.mem_cons_self _ _)).append fields

theorem lines_writeDocument (fs : List (String × Datum)) : Lines True (writeDocument fs) := by
  cases fs with
  | nil => exact .cons (by decide) (.cons (by decide) (.newline trivial lines_nil))
  | cons f fs =>
    obtain ⟨k, d⟩ := f
    rw [writeDocument]
    exact (((lines_openField 0 k).append (lines_writeValue d 0 _)).append
      (lines_writeFields 0 fun g _ => lines_writeValue g.2)).append (.newline trivial lines_nil)

end NamespacePlan.Yaml
