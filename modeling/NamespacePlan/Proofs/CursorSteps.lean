import NamespacePlan.Yaml.Cursor
import NamespacePlan.Yaml.Writer

/-! Steps of a cursor through the text that the writer leaves: characters that stay on their line, and
line ends with the spaces behind them. -/
namespace NamespacePlan.Yaml

namespace Style

/-- A character of ASCII that is seen and stays on its line. -/
def isInline (c : Char) : Bool := ' ' ≤ c && c ≤ '~'

theorem isShown_eq (c : Char) : isShown c = (c == '\n' || isInline c) := rfl

theorem not_isInline_of_isBreak {c : Char} (ends : isBreak c = true) : isInline c = false := by
  simp only [isBreak, Bool.or_eq_true, beq_iff_eq] at ends
  rcases ends with ((rfl | rfl) | rfl) | rfl <;> decide

theorem not_isBreak {c : Char} (inline : isInline c = true) : isBreak c = false := by
  cases ends : isBreak c with
  | false => rfl
  | true => rw [not_isInline_of_isBreak ends] at inline; cases inline

theorem ne_of_isInline {c d : Char} (inline : isInline c = true) (other : isInline d = false) :
    c ≠ d := by
  rintro rfl
  rw [inline] at other
  cases other

/-- Of the characters that stay on a line only the space is blank. -/
theorem isBlankOrBreak_eq {c : Char} (inline : isInline c = true) :
    isBlankOrBreak c = (c == ' ') := by
  have other : ∀ d, isInline d = false → (c == d) = false := fun d h =>
    beq_eq_false_iff_ne.2 (ne_of_isInline inline h)
  rw [isBlankOrBreak, not_isBreak inline, other '\x00' (by decide), other '\t' (by decide),
    other '\x0d' (by decide), Bool.false_or, Bool.or_false, Bool.or_false, Bool.or_false]

end Style

open Style

/-- The text has no line end and only characters of ASCII. -/
def Inline (cs : List Char) : Prop := ∀ c ∈ cs, isInline c = true

instance (cs : List Char) : Decidable (Inline cs) := List.decidableBAll _ cs

theorem Inline.append {xs ys : List Char} (left : Inline xs) (right : Inline ys) :
    Inline (xs ++ ys) := by
  intro c member
  rcases List.mem_append.1 member with h | h
  · exact left c h
  · exact right c h

theorem Inline.cons {c : Char} {cs : List Char} (head : isInline c = true) (tail : Inline cs) :
    Inline (c :: cs) := by
  intro x member
  rcases List.mem_cons.1 member with rfl | h
  · exact head
  · exact tail x h

theorem inline_nil : Inline [] := fun _ member => nomatch member

theorem length_spaces (n : Nat) : (spaces n).length = n := List.length_replicate

theorem takeWhile_spaces {p : Char → Bool} (blank : p ' ' = true) (k : Nat) {rest : List Char}
    (stop : ∀ c ∈ rest.head?, p c = false) : (spaces k ++ rest).takeWhile p = spaces k := by
  have none : rest.takeWhile p = [] := by
    cases rest with
    | nil => rfl
    | cons c rest => exact List.takeWhile_cons_of_neg (by rw [stop c rfl]; exact Bool.false_ne_true)
  have all : ∀ c ∈ spaces k, p c = true := fun c member => by
    rw [List.eq_of_mem_replicate member, blank]
  rw [List.takeWhile_append_of_pos all, none, List.append_nil]

theorem inline_spaces (n : Nat) : Inline (spaces n) := by
  intro c member
  rw [List.eq_of_mem_replicate member]
  decide

theorem Inline.head {c : Char} {cs : List Char} (inline : Inline (c :: cs)) : isInline c = true :=
  inline c List.mem_cons_self

theorem Inline.tail {c : Char} {cs : List Char} (inline : Inline (c :: cs)) : Inline cs :=
  fun x member => inline x (List.mem_cons_of_mem c member)

theorem exists_run (x : Char) (cs : List Char) :
    ∃ k rest, cs = List.replicate k x ++ rest ∧ rest.head? ≠ some x := by
  induction cs with
  | nil => exact ⟨0, [], rfl, by simp⟩
  | cons c cs ih =>
    by_cases same : c = x
    · obtain ⟨k, rest, rfl, other⟩ := ih
      exact ⟨k + 1, rest, by rw [same]; rfl, other⟩
    · exact ⟨0, c :: cs, rfl, by simpa using same⟩

namespace Cursor

theorem skip_add (m n : Nat) (c : Cursor) : c.skip (m + n) = (c.skip m).skip n := by
  induction m generalizing c with
  | zero => rw [Nat.zero_add]; rfl
  | succ m ih => rw [Nat.succ_add, skip, ih]; rfl

theorem rest_step (c : Cursor) : c.step.rest = c.rest.tail := by
  unfold step
  split
  · next empty => rw [empty]; rfl
  · next text =>
    rw [text]
    split <;> rfl

theorem rest_skip (n : Nat) (c : Cursor) : (c.skip n).rest = c.rest.drop n := by
  induction n generalizing c with
  | zero => rfl
  | succ n ih => rw [skip, ih, rest_step, List.drop_tail]

theorem length_skip_lt {n : Nat} {c : Cursor} (some : 0 < n) (more : c.rest ≠ []) :
    (c.skip n).rest.length < c.rest.length := by
  have long := List.length_pos_iff.2 more
  rw [rest_skip, List.length_drop]
  omega

theorem length_step_lt {c : Cursor} {ch : Char} {rest : List Char} (text : c.rest = ch :: rest) :
    c.step.rest.length < c.rest.length :=
  length_skip_lt Nat.one_pos (by rw [text]; exact List.cons_ne_nil ch rest)

theorem line_le_step (c : Cursor) : c.line ≤ c.step.line := by
  unfold step
  split
  · exact Nat.le_refl _
  · split
    · exact Nat.le_succ _
    · exact Nat.le_refl _

theorem line_le_skip (n : Nat) (c : Cursor) : c.line ≤ (c.skip n).line := by
  induction n generalizing c with
  | zero => exact Nat.le_refl _
  | succ n ih => exact Nat.le_trans (line_le_step c) (ih c.step)

theorem rest_skip_append {c : Cursor} {xs ys : List Char} (text : c.rest = xs ++ ys) :
    (c.skip xs.length).rest = ys := by
  rw [rest_skip, text, List.drop_left]

theorem rest_step_cons {c : Cursor} {ch : Char} {rest : List Char} (text : c.rest = ch :: rest) :
    c.step.rest = rest := by
  rw [rest_step, text, List.tail_cons]

theorem rest_skip_spaces {c : Cursor} {k : Nat} {rest : List Char} (text : c.rest = spaces k ++ rest) :
    (c.skip k).rest = rest := by
  have behind := rest_skip_append text
  rwa [length_spaces] at behind

theorem step_inline {c : Cursor} {ch : Char} {rest : List Char} (text : c.rest = ch :: rest)
    (inline : isInline ch = true) : c.step = ⟨rest, c.index + 1, c.line, c.column + 1⟩ := by
  have mark : ch ≠ '\ufeff' := ne_of_isInline inline (by decide)
  rw [step, text]
  simp only [not_isBreak inline, mark, Bool.false_eq_true, if_false]

theorem skip_inline {c : Cursor} {xs ys : List Char} (text : c.rest = xs ++ ys)
    (inline : Inline xs) :
    c.skip xs.length = ⟨ys, c.index + xs.length, c.line, c.column + xs.length⟩ := by
  induction xs generalizing c with
  | nil =>
    rw [List.nil_append] at text
    rw [← text]
    rfl
  | cons x xs ih =>
    rw [List.length_cons, skip, step_inline text inline.head, ih rfl inline.tail]
    simp only [Cursor.mk.injEq, true_and]
    omega

theorem step_newline {c : Cursor} {rest : List Char} (text : c.rest = '\n' :: rest) :
    c.step = ⟨rest, c.index + 1, c.line + 1, 0⟩ := by
  rw [step, text]
  rfl

/-- Behind a line end and the spaces of the next line. -/
theorem skip_newline {c : Cursor} {k : Nat} {rest : List Char}
    (text : c.rest = '\n' :: (spaces k ++ rest)) :
    c.skip (k + 1) = ⟨rest, c.index + 1 + k, c.line + 1, k⟩ := by
  have line := skip_inline (c := ⟨spaces k ++ rest, c.index + 1, c.line + 1, 0⟩) rfl
    (inline_spaces k)
  rw [length_spaces] at line
  rw [skip, step_newline text, line, Nat.zero_add]

theorem lineBreak_newline {c : Cursor} {rest : List Char} (text : c.rest = '\n' :: rest) :
    c.lineBreak = (some '\n', c.step) := by
  rw [lineBreak, text]
  rfl

theorem lineBreak_inline {c : Cursor} {ch : Char} {rest : List Char} (text : c.rest = ch :: rest)
    (inline : isInline ch = true) : c.lineBreak = (none, c) := by
  rw [lineBreak, text]
  simp only [not_isBreak inline, Bool.false_eq_true, if_false]

theorem lineBreak_nil {c : Cursor} (text : c.rest = []) : c.lineBreak = (none, c) := by
  rw [lineBreak, text]

end Cursor

end NamespacePlan.Yaml
