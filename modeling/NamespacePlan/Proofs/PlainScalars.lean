import NamespacePlan.Proofs.CursorSteps
import NamespacePlan.Yaml.Lexer

/-! Texts without quotes read back word by word. The blanks between two words are spaces or a line end
that stands for one of them; nothing in an inert text ends a word early. -/
namespace NamespacePlan.Yaml

open Style

/-! Words and gaps as they are written. -/

namespace Scalar

variable {m : Margin}

/-- A text without blanks. -/
def Word (w : List Char) : Prop := ∀ c ∈ w, isInline c = true ∧ c ≠ ' '

theorem plain_unfolded (straight : m.folds = false) (col : Nat) (afterSpace : Bool) (cs : List Char) :
    plain m col afterSpace cs = cs := by
  induction cs generalizing col afterSpace with
  | nil => rfl
  | cons c cs ih =>
    rw [plain, straight, Bool.false_and, Bool.false_and, if_neg Bool.false_ne_true, ih]

theorem plain_cons (col : Nat) (afterSpace : Bool) {c : Char} (space : c ≠ ' ') (rest : List Char) :
    plain m col afterSpace (c :: rest) = c :: plain m (col + 1) false rest := by
  have stays : mayFold afterSpace c rest = false := by
    rw [mayFold, beq_eq_false_iff_ne.2 space]
    rfl
  rw [plain, stays, Bool.and_false, Bool.false_and, if_neg Bool.false_ne_true,
    beq_eq_false_iff_ne.2 space]

theorem plain_word (col : Nat) (afterSpace : Bool) {w : List Char} (word : Word w) (some : w ≠ [])
    (rest : List Char) :
    plain m col afterSpace (w ++ rest) = w ++ plain m (col + w.length) false rest := by
  induction w generalizing col afterSpace with
  | nil => exact absurd rfl some
  | cons c w ih =>
    rw [List.cons_append, plain_cons col afterSpace (word c List.mem_cons_self).2, List.cons_append,
      List.length_cons]
    by_cases last : w = []
    · rw [last]
      rfl
    · rw [ih (col + 1) false (fun x member => word x (List.mem_cons_of_mem c member)) last,
        Nat.add_right_comm, Nat.add_assoc]

theorem plain_spaces (col k : Nat) (rest : List Char) :
    plain m col true (spaces k ++ rest) = spaces k ++ plain m (col + k) true rest := by
  induction k generalizing col with
  | zero => rfl
  | succ k ih =>
    have stays : mayFold true ' ' (spaces k ++ rest) = false := rfl
    change plain m col true (' ' :: (spaces k ++ rest)) = _
    rw [plain, stays, Bool.and_false, Bool.false_and, if_neg Bool.false_ne_true, beq_self_eq_true, ih,
      Nat.add_right_comm, Nat.add_assoc]
    rfl

/-- A gap is written as it stands, or, when it is one space, as a line end. -/
theorem plain_gap (col j : Nat) (rest : List Char) : ∃ gap col',
    plain m col false (spaces (j + 1) ++ rest) = gap ++ plain m col' true rest ∧
      (gap = spaces (j + 1) ∨ gap = newLine m ∧ j = 0 ∧ m.folds = true) := by
  change ∃ gap col', plain m col false (' ' :: (spaces j ++ rest)) = _ ∧ _
  rw [plain]
  split
  · next fold =>
    simp only [mayFold, Bool.and_eq_true] at fold
    have single : j = 0 := by
      cases j with
      | zero => rfl
      | succ j => cases fold.1.2.2
    subst single
    exact ⟨newLine m, m.indent, rfl, Or.inr ⟨rfl, rfl, fold.1.1⟩⟩
  · rw [beq_self_eq_true, plain_spaces]
    exact ⟨spaces (j + 1), _, rfl, Or.inl rfl⟩

/-- Folding changes nothing about whether a blank comes first. -/
theorem blankAhead_plain (col : Nat) (afterSpace : Bool) {cs : List Char} (more : cs ≠ [])
    (tail : List Char) : blankAhead (plain m col afterSpace cs ++ tail) = blankAhead cs := by
  cases cs with
  | nil => exact absurd rfl more
  | cons c cs =>
    rw [plain]
    split
    · next fold =>
      simp only [mayFold, Bool.and_eq_true, beq_iff_eq] at fold
      rw [fold.1.2.1.1]
      rfl
    · rfl

/-- What a folded text begins with on its first line, the text itself begins with. -/
theorem isPrefixOf_plain {w tail : List Char} (oneLine : '\n' ∉ w) (apart : ∀ x ∈ tail.head?, x ∉ w)
    {col : Nat} {afterSpace : Bool} {cs : List Char}
    (begins : w.isPrefixOf (plain m col afterSpace cs ++ tail) = true) : w.isPrefixOf cs = true := by
  induction w generalizing col afterSpace cs with
  | nil => rfl
  | cons x w ih =>
    cases cs with
    | nil =>
      cases tail with
      | nil => cases begins
      | cons y tail =>
        rw [plain, List.nil_append, List.isPrefixOf, Bool.and_eq_true, beq_iff_eq] at begins
        exact absurd (begins.1 ▸ List.mem_cons_self) (apart y rfl)
    | cons c cs =>
      rw [plain] at begins
      split at begins
      · rw [newLine, List.cons_append, List.cons_append, List.isPrefixOf, Bool.and_eq_true,
          beq_iff_eq] at begins
        exact absurd (begins.1 ▸ List.mem_cons_self) oneLine
      · rw [List.cons_append, List.isPrefixOf, Bool.and_eq_true] at begins
        rw [List.isPrefixOf, begins.1, Bool.true_and]
        exact ih (fun h => oneLine (List.mem_cons_of_mem x h))
          (fun y h member => apart y h (List.mem_cons_of_mem x member)) begins.2

theorem length_le_plain (col : Nat) (afterSpace : Bool) (cs : List Char) :
    cs.length ≤ (plain m col afterSpace cs).length := by
  induction cs generalizing col afterSpace with
  | nil => exact Nat.le_refl 0
  | cons c cs ih =>
    have rest := ih m.indent true
    have rest' := ih (col + 1) (c == ' ')
    rw [plain]
    split
    · simp only [newLine, List.length_append, List.length_cons]
      omega
    · simp only [List.length_cons]
      omega

end Scalar

/-! Their reading. -/

namespace ScalarText

open Scalar

theorem run_word {w orig after : List Char} (word : Word w) {flag : Bool}
    (inert : holdsIndicator flag (w ++ orig) = false) (blank : blankAhead orig = true)
    (stop : run false after = []) : run false (w ++ after) = w := by
  induction w generalizing flag with
  | nil => exact stop
  | cons c w ih =>
    have own := word c List.mem_cons_self
    rw [List.cons_append, holdsIndicator, Bool.or_eq_false_iff, Bool.or_eq_false_iff] at inert
    have goes : endsRun false c (w ++ after) = false := by
      have colon : (c == ':' && blankAhead (w ++ after)) = false := by
        cases w with
        | nil =>
          have alone := inert.1.1
          rw [List.nil_append, blank, Bool.and_true] at alone
          rw [alone]
          rfl
        | cons d w =>
          have next := word d (List.mem_cons_of_mem c List.mem_cons_self)
          rw [List.cons_append, blankAhead, isBlankOrBreak_eq next.1, beq_eq_false_iff_ne.2 next.2,
            Bool.and_false]
      rw [endsRun, isBlankOrBreak_eq own.1, beq_eq_false_iff_ne.2 own.2]
      simpa using colon
    rw [List.cons_append, run, goes, if_neg Bool.false_ne_true,
      ih (fun x member => word x (List.mem_cons_of_mem c member)) inert.2]

theorem plainBreaks_spaces {i fuel : Nat} (enough : i ≤ fuel) {c : Cursor} {rest : List Char}
    (text : c.rest = spaces i ++ rest)
    (solid : ∀ ch cs, rest = ch :: cs → isInline ch = true ∧ ch ≠ ' ') (breaks : List Char) :
    plainBreaks fuel c breaks = (some breaks, c.skip i) := by
  induction i generalizing c fuel with
  | zero =>
    cases fuel with
    | zero => rfl
    | succ fuel =>
      have left : c.rest = rest := text
      cases rest with
      | nil =>
        have unseen : c.sees ' ' = false := by rw [Cursor.sees, left]; rfl
        rw [plainBreaks, unseen, if_neg Bool.false_ne_true, Cursor.lineBreak_nil left]
        rfl
      | cons ch cs =>
        obtain ⟨inline, other⟩ := solid ch cs rfl
        have unseen : c.sees ' ' = false := by
          rw [Cursor.sees, left]
          simpa using other
        rw [plainBreaks, unseen, if_neg Bool.false_ne_true, Cursor.lineBreak_inline left inline]
        rfl
  | succ i ih =>
    obtain ⟨fuel, rfl⟩ : ∃ n, fuel = n + 1 := ⟨fuel - 1, by omega⟩
    have seen : c.sees ' ' = true := by rw [Cursor.sees, text]; rfl
    have next : c.step.rest = spaces i ++ rest := Cursor.rest_step_cons text
    rw [plainBreaks, seen, if_pos rfl, ih (by omega) next]
    rfl

theorem plainBlanks_spaces {c : Cursor} {k : Nat} {ch : Char} {rest : List Char}
    (inline : isInline ch = true) (other : ch ≠ ' ') (text : c.rest = spaces k ++ ch :: rest) :
    plainBlanks c = (spaces k, c.skip k, false) := by
  have run : (spaces k ++ ch :: rest).takeWhile (· == ' ') = spaces k :=
    takeWhile_spaces rfl k (by simpa using other)
  simp only [plainBlanks, text, run, length_spaces,
    Cursor.lineBreak_inline (Cursor.rest_skip_spaces text) inline]

theorem plainBlanks_newline {c : Cursor} {k : Nat} {rest : List Char}
    (text : c.rest = '\n' :: (spaces k ++ rest)) (mark : k = 0 → startsAsMark rest = false)
    (solid : ∀ ch cs, rest = ch :: cs → isInline ch = true ∧ ch ≠ ' ') :
    plainBlanks c = ([' '], c.skip (k + 1), true) := by
  have next : c.step.rest = spaces k ++ rest := Cursor.rest_step_cons text
  have unmarked : c.step.atMark = false := by
    rw [Cursor.atMark, next]
    cases k with
    | zero => rw [spaces, List.replicate_zero, List.nil_append, mark rfl]; rfl
    | succ k => rfl
  have run : c.rest.takeWhile (· == ' ') = [] := by rw [text]; rfl
  have line : (c.skip 0).lineBreak = (some '\n', c.step) := Cursor.lineBreak_newline text
  have enough : k ≤ c.step.rest.length := by
    rw [next, List.length_append, spaces, List.length_replicate]
    omega
  have breaks := plainBreaks_spaces enough next solid []
  simp only [plainBlanks, run, List.length_nil, line, unmarked, breaks]
  rfl

/-- What the rest of an inert text is like at the beginning of each of its words. -/
structure Begins (cs : List Char) : Prop where
  inline : Inline cs
  first : cs.head? ≠ some ' '
  last : cs.getLast? ≠ some ' '
  inert : holdsIndicator true cs = false

theorem holdsIndicator_space {flag : Bool} {xs ys : List Char}
    (inert : holdsIndicator flag (xs ++ ' ' :: ys) = false) : holdsIndicator true ys = false := by
  induction xs generalizing flag with
  | nil =>
    rw [List.nil_append, holdsIndicator, Bool.or_eq_false_iff] at inert
    exact inert.2
  | cons c cs ih =>
    rw [List.cons_append, holdsIndicator, Bool.or_eq_false_iff] at inert
    exact ih inert.2

theorem split_word {cs : List Char} (inline : Inline cs) :
    ∃ w rest, cs = w ++ rest ∧ Word w ∧ (rest = [] ∨ rest.head? = some ' ') := by
  induction cs with
  | nil => exact ⟨[], [], rfl, fun _ h => (nomatch h), Or.inl rfl⟩
  | cons c cs ih =>
    by_cases space : c = ' '
    · exact ⟨[], c :: cs, rfl, fun _ h => (nomatch h), Or.inr (by rw [space]; rfl)⟩
    · obtain ⟨w, rest, rfl, word, ends⟩ := ih inline.tail
      refine ⟨c :: w, rest, rfl, fun x member => ?_, ends⟩
      rcases List.mem_cons.1 member with rfl | later
      · exact ⟨inline.head, space⟩
      · exact word x later

theorem Begins.split {cs : List Char} (begins : Begins cs) (more : cs ≠ []) :
    ∃ w, w ≠ [] ∧ Word w ∧ (cs = w ∨
      ∃ j rest, cs = w ++ (spaces (j + 1) ++ rest) ∧ rest ≠ [] ∧ Begins rest) := by
  obtain ⟨w, rest, rfl, word, ends⟩ := split_word begins.inline
  have nonempty : w ≠ [] := by
    rintro rfl
    rcases ends with rfl | space
    · exact more rfl
    · exact begins.first space
  refine ⟨w, nonempty, word, ?_⟩
  rcases ends with rfl | space
  · exact Or.inl (List.append_nil w)
  · right
    obtain ⟨k, rest, rfl, other⟩ := exists_run ' ' rest
    obtain ⟨j, rfl⟩ : ∃ j, k = j + 1 := by
      cases k with
      | zero => exact absurd space other
      | succ j => exact ⟨j, rfl⟩
    have parts : w ++ (spaces (j + 1) ++ rest) = (w ++ spaces j) ++ ' ' :: rest := by
      rw [spaces, List.replicate_succ', List.append_assoc, List.append_assoc]
      rfl
    have long : rest ≠ [] := by
      rintro rfl
      apply begins.last
      change (w ++ (spaces (j + 1) ++ [])).getLast? = some ' '
      rw [parts, List.getLast?_concat]
    refine ⟨j, rest, rfl, long, ?_, other, ?_, ?_⟩
    · exact fun c member => begins.inline c
        (List.mem_append_right _ (List.mem_append_right _ member))
    · intro space
      apply begins.last
      rw [List.getLast?_append, List.getLast?_append, space]
      rfl
    · have inert := begins.inert
      change holdsIndicator true (w ++ (spaces (j + 1) ++ rest)) = false at inert
      rw [parts] at inert
      exact holdsIndicator_space inert

/-- A word of the rest begins with a character that continues the scalar. -/
theorem plain_begins {m : Margin} (col : Nat) (afterSpace : Bool) {cs : List Char} (more : cs ≠ [])
    (begins : Begins cs) (tail : List Char) : ∃ y ys,
    Scalar.plain m col afterSpace cs ++ tail = y :: ys ∧ isInline y = true ∧ y ≠ ' ' ∧ y ≠ '#' ∧
      endsRun false y ys = false := by
  obtain ⟨y, r, rfl⟩ := List.exists_cons_of_ne_nil more
  have inline := begins.inline.head
  have space : y ≠ ' ' := by simpa using begins.first
  have inert := begins.inert
  rw [holdsIndicator, Bool.and_true, Bool.or_eq_false_iff, Bool.or_eq_false_iff,
    beq_eq_false_iff_ne] at inert
  refine ⟨y, Scalar.plain m (col + 1) false r ++ tail, ?_, inline, space, inert.1.2, ?_⟩
  · rw [Scalar.plain_cons col afterSpace space]
    rfl
  · have colon : (y == ':' && blankAhead (Scalar.plain m (col + 1) false r ++ tail)) = false := by
      by_cases last : r = []
      · have alone := inert.1.1
        rw [last, blankAhead, Bool.and_true] at alone
        rw [alone]
        rfl
      · rw [blankAhead_plain _ _ last]
        exact inert.1.1
    rw [endsRun, isBlankOrBreak_eq inline, beq_eq_false_iff_ne.2 space]
    simpa using colon

/-- A gap reads as its spaces, and the next word lies far enough to the right. -/
theorem plainBlanks_gap {m : Margin} {indent : Int}
    (roomy : m.folds = true → indent ≤ m.indent ∧ 0 < m.indent) {gap : List Char} {j : Nat}
    (kind : gap = spaces (j + 1) ∨ gap = newLine m ∧ j = 0 ∧ m.folds = true) {c : Cursor}
    (inside : indent ≤ c.column) {y : Char} {ys : List Char} (inline : isInline y = true)
    (space : y ≠ ' ') (text : c.rest = gap ++ y :: ys) :
    ∃ ended, plainBlanks c = (spaces (j + 1), c.skip gap.length, ended) ∧
      indent ≤ (c.skip gap.length).column := by
  rcases kind with rfl | ⟨rfl, rfl, folds⟩
  · refine ⟨false, ?_, ?_⟩
    · rw [length_spaces]
      exact plainBlanks_spaces inline space text
    · rw [Cursor.skip_inline text (inline_spaces _)]
      exact Int.le_trans inside (Int.ofNat_le.2 (Nat.le_add_right _ _))
  · have width : (newLine m).length = m.indent + 1 := by
      rw [newLine, List.length_cons, List.length_replicate]
    have here : c.rest = '\n' :: (spaces m.indent ++ y :: ys) := text
    refine ⟨true, ?_, ?_⟩
    · rw [width]
      refine plainBlanks_newline here (fun h => absurd h (Nat.pos_iff_ne_zero.1 (roomy folds).2))
        fun ch cs same => ?_
      cases same
      exact ⟨inline, space⟩
    · rw [width, Cursor.skip_newline here]
      exact (roomy folds).1

/-- What the reader meets behind a plain scalar: it goes to a place and finds nothing there that would
continue the scalar. -/
def Ends (indent : Int) (c next : Cursor) (ended : Bool) : Prop :=
  ∃ blanks, plainBlanks c = (blanks, next, ended) ∧
    (blanks.isEmpty || next.sees '#' || decide ((next.column : Int) < indent)) = true

/-- The first word is read whole, whatever blank stands behind it. -/
theorem run_first {x : Char} {w orig after : List Char} (word : Word (x :: w))
    (inert : holdsIndicator true (x :: w ++ orig) = false) (blank : blankAhead orig = true)
    (stop : run false after = []) {c : Cursor} (text : c.rest = x :: w ++ after) :
    c.sees '#' = false ∧ run false c.rest = x :: w := by
  constructor
  · rw [List.cons_append, holdsIndicator, Bool.and_true, Bool.or_eq_false_iff,
      Bool.or_eq_false_iff] at inert
    rw [Cursor.sees, text]
    simpa using inert.1.2
  · rw [text]
    exact run_word word inert blank stop

section Reading

variable {indent : Int} {x : Char} {w : List Char} {c next : Cursor} {ended : Bool}

theorem plain_last (unseen : c.sees '#' = false) (taken : run false c.rest = x :: w)
    (ends : Ends indent (c.skip (x :: w).length) next ended) (fuel : Nat) :
    plain false indent (fuel + 1) c = (x :: w, next, ended) := by
  obtain ⟨blanks, behind, closed⟩ := ends
  rw [plain, unseen, taken]
  simp only [List.isEmpty_cons, Bool.false_eq_true, if_false, behind, Bool.not_false, Bool.true_and,
    closed, if_true]

theorem plain_further (unseen : c.sees '#' = false) (taken : run false c.rest = x :: w) {j : Nat}
    {d : Cursor} {line : Bool}
    (behind : plainBlanks (c.skip (x :: w).length) = (spaces (j + 1), d, line))
    (inside : indent ≤ d.column) {y : Char} {ys : List Char} (text : d.rest = y :: ys)
    (mark : y ≠ '#') (goes : endsRun false y ys = false) {fuel : Nat} {more : List Char}
    (later : plain false indent fuel d = (more, next, ended)) :
    plain false indent (fuel + 1) c = (x :: w ++ (spaces (j + 1) ++ more), next, ended) := by
  have follow : (run false d.rest).isEmpty = false := by
    rw [text, run, goes]
    rfl
  have unmarked : d.sees '#' = false := by
    rw [Cursor.sees, text]
    simpa using mark
  have far : decide ((d.column : Int) < indent) = false := decide_eq_false (Int.not_lt.2 inside)
  have some : (spaces (j + 1)).isEmpty = false := rfl
  rw [plain, unseen, taken]
  simp only [List.isEmpty_cons, Bool.false_eq_true, if_false, behind, some, Bool.not_false,
    Bool.true_and, follow, later, unmarked, far, Bool.or_false, List.append_assoc]

end Reading

/-- The induction is on the length: a word is read at once, with the gap behind it. -/
theorem plain_written {m : Margin} {indent : Int}
    (roomy : m.folds = true → indent ≤ m.indent ∧ 0 < m.indent) {tail : List Char}
    (stop : run false tail = []) {next : Cursor} {ended : Bool} (n : Nat) :
    ∀ (col : Nat) (afterSpace : Bool) (cs : List Char), cs.length ≤ n → cs ≠ [] → Begins cs →
    ∀ c : Cursor, indent ≤ c.column + 1 → c.rest = Scalar.plain m col afterSpace cs ++ tail →
    Ends indent (c.skip (Scalar.plain m col afterSpace cs).length) next ended →
    ∀ fuel, cs.length ≤ fuel → plain false indent fuel c = (cs, next, ended) := by
  induction n with
  | zero =>
    intro col afterSpace cs short more
    exact absurd (List.length_eq_zero_iff.1 (by omega)) more
  | succ n ih =>
    intro col afterSpace cs short more begins c inside text ends fuel enough
    obtain ⟨fuel, rfl⟩ : ∃ k, fuel = k + 1 :=
      ⟨fuel - 1, by have := List.length_pos_iff.2 more; omega⟩
    obtain ⟨w, nonempty, word, parts⟩ := begins.split more
    obtain ⟨x, w, rfl⟩ := List.exists_cons_of_ne_nil nonempty
    rcases parts with rfl | ⟨j, rest, rfl, long, begins'⟩
    · have written := plain_word (m := m) col afterSpace word nonempty []
      rw [List.append_nil, Scalar.plain, List.append_nil] at written
      rw [written] at text ends
      have inert : holdsIndicator true (x :: w ++ []) = false := by
        rw [List.append_nil]
        exact begins.inert
      obtain ⟨unseen, taken⟩ := run_first word inert rfl stop text
      exact plain_last unseen taken ends fuel
    · obtain ⟨gap, col', gapWritten, kind⟩ := plain_gap (m := m) (col + (x :: w).length) j rest
      have written : Scalar.plain m col afterSpace (x :: w ++ (spaces (j + 1) ++ rest)) =
          x :: w ++ (gap ++ Scalar.plain m col' true rest) := by
        rw [plain_word col afterSpace word nonempty, gapWritten]
      rw [written] at text ends
      rw [List.append_assoc, List.append_assoc] at text
      rw [List.length_append, List.length_append, Cursor.skip_add, Cursor.skip_add] at ends
      have blank : run false (gap ++ (Scalar.plain m col' true rest ++ tail)) = [] := by
        rcases kind with rfl | ⟨rfl, _, _⟩ <;> rfl
      obtain ⟨unseen, taken⟩ := run_first word begins.inert rfl blank text
      obtain ⟨y, ys, here, inline, space, mark, goes⟩ :=
        plain_begins (m := m) col' true long begins' tail
      have inside' : indent ≤ (c.skip (x :: w).length).column := by
        rw [Cursor.skip_inline text fun z member => (word z member).1]
        simp only [List.length_cons]
        omega
      have left := Cursor.rest_skip_append text
      obtain ⟨line, behind, inside''⟩ := plainBlanks_gap roomy kind inside' inline space
        (left.trans (congrArg (gap ++ ·) here))
      have left' := Cursor.rest_skip_append left
      have later := ih col' true rest (by simp at short; omega) long begins' _ (by omega) left' ends
        fuel (by simp at enough; omega)
      exact plain_further unseen taken behind inside'' (left'.trans here) mark goes later

/-! Whole scalars. -/

theorem begins_of_allowsPlain {cs : List Char} (allowed : allowsPlain cs = true) :
    cs ≠ [] ∧ Begins cs ∧ startsAsMark cs = false ∧ startsAsIndicator cs = false := by
  simp only [allowsPlain, Bool.and_eq_true, Bool.not_eq_true', List.isEmpty_eq_false_iff] at allowed
  obtain ⟨⟨⟨⟨more, oneLine⟩, shown⟩, tight⟩, inert⟩ := allowed
  obtain ⟨x, xs, rfl⟩ := List.exists_cons_of_ne_nil more
  simp only [isInert, Bool.and_eq_true, Bool.not_eq_true'] at inert
  have inline : Inline (x :: xs) := by
    intro c member
    have own := List.all_eq_true.1 shown c member
    have ends := List.any_eq_false.1 oneLine c member
    rw [isShown_eq, Bool.or_eq_true] at own
    rcases own with line | h
    · rw [beq_iff_eq] at line
      subst line
      exact absurd rfl ends
    · exact h
  simp only [hasLooseEnd, Bool.or_eq_false_iff] at tight
  have marked : (x == '#') = false ∧ (x == ':' && blankAhead xs) = false := by
    have first := inert.1.2
    simp only [startsAsIndicator, Bool.or_eq_false_iff] at first
    constructor
    · rw [beq_eq_false_iff_ne]
      rintro rfl
      exact absurd first.1 (by decide)
    · cases colon : x == ':' with
      | false => rfl
      | true =>
        have ahead := first.2
        rw [colon, Bool.or_true, Bool.true_or, Bool.true_and] at ahead
        exact ahead
  refine ⟨more, ⟨inline, ?_, ?_, ?_⟩, inert.1.1, inert.1.2⟩
  · intro space
    rw [space] at tight
    exact absurd tight.1 (by decide)
  · intro space
    rw [space] at tight
    exact absurd tight.2 (by decide)
  · rw [holdsIndicator, marked.1, marked.2, inert.2]
    rfl

theorem ends_newline {indent : Int} {c : Cursor} {k : Nat} {rest : List Char}
    (text : c.rest = '\n' :: (spaces k ++ rest)) (outside : (k : Int) < indent)
    (mark : startsAsMark rest = false)
    (solid : ∀ ch cs, rest = ch :: cs → isInline ch = true ∧ ch ≠ ' ') :
    Ends indent c (c.skip (k + 1)) true := by
  refine ⟨[' '], plainBlanks_newline text (fun _ => mark) solid, ?_⟩
  rw [Cursor.skip_newline text, decide_eq_true outside, Bool.or_true]

theorem ends_colon {indent : Int} {c : Cursor} {rest : List Char} (text : c.rest = ':' :: rest) :
    Ends indent c c false := by
  have colon := plainBlanks_spaces (c := c) (k := 0) (by decide) (by decide) text
  exact ⟨[], colon, rfl⟩

theorem run_colon {rest : List Char} (blank : blankAhead rest = true) :
    run false (':' :: rest) = [] := by
  have ends : endsRun false ':' rest = true := by
    rw [endsRun, blank]
    rfl
  rw [run, ends, if_pos rfl]

variable {m : Margin} {indent : Int} {col : Nat} {cs : List Char} {c : Cursor} {rest : List Char}

/-- A plain scalar in front of a colon. -/
theorem plain_key (allowed : allowsPlain cs = true)
    (roomy : m.folds = true → indent ≤ m.indent ∧ 0 < m.indent) (inside : indent ≤ c.column + 1)
    (text : c.rest = Scalar.plain m col false cs ++ ':' :: rest) (blank : blankAhead rest = true)
    {fuel : Nat} (enough : cs.length ≤ fuel) :
    plain false indent fuel c = (cs, c.skip (Scalar.plain m col false cs).length, false) := by
  obtain ⟨more, begins, _, _⟩ := begins_of_allowsPlain allowed
  exact plain_written roomy (run_colon blank) cs.length col false cs (Nat.le_refl _) more begins c
    inside text (ends_colon (Cursor.rest_skip_append text)) fuel enough

/-- A plain scalar at the end of a line; the reader goes on to the next line that is not empty. -/
theorem plain_value (allowed : allowsPlain cs = true)
    (roomy : m.folds = true → indent ≤ m.indent ∧ 0 < m.indent) (inside : indent ≤ c.column + 1)
    {k : Nat} (text : c.rest = Scalar.plain m col false cs ++ '\n' :: (spaces k ++ rest))
    (outside : (k : Int) < indent) (mark : startsAsMark rest = false)
    (solid : ∀ ch cs, rest = ch :: cs → isInline ch = true ∧ ch ≠ ' ') {fuel : Nat}
    (enough : cs.length ≤ fuel) :
    plain false indent fuel c =
      (cs, (c.skip (Scalar.plain m col false cs).length).skip (k + 1), true) := by
  obtain ⟨more, begins, _, _⟩ := begins_of_allowsPlain allowed
  exact plain_written roomy rfl cs.length col false cs (Nat.le_refl _) more begins c inside text
    (ends_newline (Cursor.rest_skip_append text) outside mark solid) fuel enough

end ScalarText

end NamespacePlan.Yaml
