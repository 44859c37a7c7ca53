import NamespacePlan.Proofs.CursorSteps
import NamespacePlan.Yaml.Lexer

/-! Steps of the lexer through a block. Between two tokens outside brackets its state is a place in the
text, the open columns, the tokens so far and perhaps a possible key; the blanks in front of a token
and the blocks that its column closes change nothing about the step it takes. -/
namespace NamespacePlan.Yaml

open Style

namespace Lexer

/-! Runs. -/

/-- The lexer goes on from the second state, perhaps some steps later, as it does from the first. -/
inductive Reaches : Lexer → Lexer → Prop where
  | alike {l m : Lexer} (next : l.next = m.next)
      (shorter : m.cursor.rest.length ≤ l.cursor.rest.length)
      (unended : .streamEnd ∈ m.cut → .streamEnd ∈ l.cut) : Reaches l m
  | step {l m n : Lexer} (next : l.next = .ok m)
      (shorter : m.cursor.rest.length < l.cursor.rest.length)
      (unended : .streamEnd ∈ m.cut → .streamEnd ∈ l.cut) (more : Reaches m n) : Reaches l n

/-- The lexer stops before the end of the text. -/
def Fails (l : Lexer) : Prop := ∃ m f, Reaches l m ∧ m.next = .error f

theorem Reaches.refl (l : Lexer) : Reaches l l := .alike rfl (Nat.le_refl _) id

theorem Reaches.trans {l m n : Lexer} (first : Reaches l m) (second : Reaches m n) :
    Reaches l n := by
  induction first with
  | alike next shorter unended =>
    cases second with
    | alike next' shorter' unended' =>
      exact .alike (next.trans next') (Nat.le_trans shorter' shorter) (unended ∘ unended')
    | step next' shorter' unended' more =>
      exact .step (next.trans next') (Nat.lt_of_lt_of_le shorter' shorter) (unended ∘ unended') more
  | step next shorter unended _ ih => exact .step next shorter unended (ih second)

theorem Fails.of_reaches {l m : Lexer} (first : Reaches l m) (fails : Fails m) : Fails l := by
  obtain ⟨n, f, second, stops⟩ := fails
  exact ⟨n, f, first.trans second, stops⟩

theorem Reaches.run_eq {l m e : Lexer} (reaches : Reaches l m) (next : m.next = .ok e)
    (ended : e.cut.head? = some .streamEnd) (unended : .streamEnd ∉ l.cut) {fuel : Nat}
    (enough : l.cursor.rest.length < fuel) : run fuel l = e.cut.reverse := by
  induction reaches generalizing fuel with
  | alike same =>
    obtain ⟨fuel, rfl⟩ : ∃ n, fuel = n + 1 := ⟨fuel - 1, by omega⟩
    rw [run, same, next]
    simp only [ended, if_true]
  | @step l m n first shorter kept more ih =>
    obtain ⟨fuel, rfl⟩ : ∃ n, fuel = n + 1 := ⟨fuel - 1, by omega⟩
    have open_cut : m.cut.head? ≠ some .streamEnd := fun h =>
      unended (kept (List.mem_of_head? h))
    rw [run, first]
    simp only [open_cut, if_false]
    exact ih next (fun h => unended (kept h)) (by omega)

theorem Fails.run_unended {l : Lexer} (fails : Fails l) (unended : .streamEnd ∉ l.cut)
    (fuel : Nat) : .streamEnd ∉ run fuel l := by
  obtain ⟨m, f, reaches, stops⟩ := fails
  have stopped : ∀ (f : Fault) {cut : List Token}, .streamEnd ∉ cut →
      .streamEnd ∉ (Token.stop f :: cut).reverse := by
    intro f cut h
    simp [h]
  induction reaches generalizing fuel with
  | alike same =>
    cases fuel with
    | zero => exact stopped _ unended
    | succ fuel =>
      rw [run, same, stops]
      exact stopped _ fun member => unended (List.mem_of_mem_drop member)
  | @step l m n first shorter kept more ih =>
    have unended' : .streamEnd ∉ m.cut := fun h => unended (kept h)
    cases fuel with
    | zero => exact stopped _ unended
    | succ fuel =>
      have open_cut : m.cut.head? ≠ some .streamEnd := fun h => unended' (List.mem_of_head? h)
      rw [run, first]
      simp only [open_cut, if_false]
      exact ih unended' fuel stops

/-! Between two tokens. -/

/-- Before a token, or behind the last one. -/
def Ready (cs : List Char) : Prop :=
  ∀ ch rest, cs = ch :: rest → isInline ch = true ∧ ch ≠ ' ' ∧ ch ≠ '#'

theorem ready_nil : Ready [] := by
  intro ch rest text
  cases text

theorem ready_cons {ch : Char} (inline : isInline ch = true) (space : ch ≠ ' ') (mark : ch ≠ '#')
    (rest : List Char) : Ready (ch :: rest) := by
  intro x xs text
  cases text
  exact ⟨inline, space, mark⟩

/-- A state outside brackets. -/
def between (allowed : Bool) (key : Option PossibleKey) (indents : List Nat) (cut : List Token)
    (c : Cursor) : Lexer :=
  { cursor := c, indents := indents, keyAllowed := allowed, key := key, cut := cut }

/-- The token at a place, or the end. -/
def meet (l : Lexer) : Except Fault Lexer :=
  match l.cursor.rest with
  | [] => (l.unwind (-1)).dropKey.map fun l => l.emit .streamEnd l.cursor
  | ch :: rest => dispatch ch rest l

/-- A step, once the blanks in front of the token are skipped. -/
def resume (l : Lexer) : Except Fault Lexer := do
  let l ← l.dropStale
  meet (l.unwind l.cursor.column)

theorem next_eq {l m : Lexer} (unmarked : l.cursor.rest.head? ≠ some '\ufeff')
    (skipped : skipBlanks (l.cursor.rest.length + 1) l = m) : l.next = resume m := by
  have unseen : ¬(l.cursor.index = 0 ∧ l.cursor.sees '\ufeff' = true) := by
    rintro ⟨_, seen⟩
    rw [Cursor.sees, beq_iff_eq] at seen
    exact unmarked seen
  rw [next, if_neg unseen, ← skipped]
  rfl

theorem skipBlanks_ready {l : Lexer} {k : Nat} {rest : List Char}
    (text : l.cursor.rest = spaces k ++ rest) (ready : Ready rest) (fuel : Nat) :
    skipBlanks (fuel + 1) l = { l with cursor := l.cursor.skip k } := by
  have stop : ∀ ch ∈ rest.head?, (ch == ' ') = false := by
    intro ch first
    obtain ⟨behind, rfl⟩ := List.head?_eq_some_iff.1 first
    exact beq_eq_false_iff_ne.2 (ready ch behind rfl).2.1
  have left : (l.cursor.skip k).rest = rest := Cursor.rest_skip_spaces text
  have blanks : l.cursor.skipWhile (· == ' ') = l.cursor.skip k := by
    rw [Cursor.skipWhile, text, takeWhile_spaces rfl k stop, length_spaces]
  have unseen : (l.cursor.skip k).sees '#' = false := by
    rw [Cursor.sees, left]
    cases rest with
    | nil => rfl
    | cons ch rest =>
      obtain ⟨_, _, mark⟩ := ready ch rest rfl
      simpa using mark
  have line : (l.cursor.skip k).lineBreak = (none, l.cursor.skip k) := by
    cases rest with
    | nil => exact Cursor.lineBreak_nil left
    | cons ch rest => exact Cursor.lineBreak_inline left (ready ch rest rfl).1
  simp only [skipBlanks, blanks, unseen, Bool.false_eq_true, if_false, line]

theorem skipBlanks_newline {l : Lexer} {k : Nat} {rest : List Char}
    (text : l.cursor.rest = '\n' :: (spaces k ++ rest)) (ready : Ready rest)
    (block : l.outer = []) (fuel : Nat) :
    skipBlanks (fuel + 2) l = { l with cursor := l.cursor.skip (k + 1), keyAllowed := true } := by
  have stays : l.cursor.skipWhile (· == ' ') = l.cursor := by
    rw [Cursor.skipWhile, text]
    rfl
  have unseen : l.cursor.sees '#' = false := by rw [Cursor.sees, text]; rfl
  have next : l.cursor.step.rest = spaces k ++ rest := Cursor.rest_step_cons text
  have outside : l.inFlow = false := by rw [inFlow, block]; rfl
  rw [skipBlanks]
  simp only [stays, unseen, Bool.false_eq_true, if_false, Cursor.lineBreak_newline text, outside,
    Bool.not_false, Bool.or_true]
  exact skipBlanks_ready next ready fuel

section Between

variable {allowed : Bool} {indents : List Nat} {cut : List Token} {c : Cursor}

theorem dropStale_none :
    (between allowed none indents cut c).dropStale = .ok (between allowed none indents cut c) := rfl

/-- A possible key is given up when its colon can no longer follow. -/
theorem dropStale_some (k : PossibleKey) :
    (between allowed (some k) indents cut c).dropStale =
      if isStale c k then
        if k.required then .error .malformed else .ok (between allowed none indents cut c)
      else .ok (between allowed (some k) indents cut c) := by
  cases stale : isStale c k with
  | false => simp [dropStale, between, stale]
  | true => cases required : k.required <;> simp [dropStale, between, stale, required]

theorem unwind_inner {column : Nat} (inner : ∀ i ∈ indents.head?, i ≤ column)
    (key : Option PossibleKey) :
    (between allowed key indents cut c).unwind column = between allowed key indents cut c := by
  have none : indents.takeWhile (fun (i : Nat) => decide ((column : Int) < (i : Int))) = [] := by
    cases indents with
    | nil => rfl
    | cons i is =>
      have least := inner i rfl
      exact List.takeWhile_cons_of_neg (by simpa using least)
  simp only [unwind, inFlow, between, List.isEmpty_nil, Bool.not_true, Bool.false_eq_true, if_false,
    none, List.length_nil, List.drop_zero, List.replicate_zero, List.nil_append]

theorem unwind_cons {column : Int} {p : Nat} (outer : column < p) :
    (between allowed none (p :: indents) cut c).unwind column =
      (between allowed none indents (.blockEnd :: cut) c).unwind column := by
  simp only [unwind, inFlow, between, List.isEmpty_nil, Bool.not_true, Bool.false_eq_true, if_false,
    List.takeWhile_cons, decide_eq_true outer, if_true, List.length_cons, List.drop_succ_cons,
    List.replicate_succ', List.append_assoc, List.singleton_append]

theorem resume_none : resume (between allowed none indents cut c) =
    meet ((between allowed none indents cut c).unwind c.column) := rfl

theorem resume_token {key : Option PossibleKey} {ch : Char} {rest : List Char}
    (text : c.rest = ch :: rest) (inner : ∀ i ∈ indents.head?, i ≤ c.column)
    (fresh : ∀ k ∈ key, isStale c k = false) :
    resume (between allowed key indents cut c) =
      dispatch ch rest (between allowed key indents cut c) := by
  have kept : (between allowed key indents cut c).dropStale =
      .ok (between allowed key indents cut c) := by
    cases key with
    | none => rfl
    | some k =>
      rw [dropStale_some, fresh k rfl]
      rfl
  have here : (between allowed key indents cut c).cursor.rest = ch :: rest := text
  rw [resume, kept]
  change meet ((between allowed key indents cut c).unwind c.column) = _
  rw [unwind_inner inner, meet, here]

/-- A block that the column of the next token closes is closed at once. -/
theorem resume_close {p : Nat} (outer : c.column < p) :
    resume (between allowed none (p :: indents) cut c) =
      resume (between allowed none indents (.blockEnd :: cut) c) := by
  rw [resume_none, resume_none, unwind_cons (Int.ofNat_lt.2 outer)]

theorem resume_stale {k : PossibleKey} (stale : isStale c k = true) (free : k.required = false) :
    resume (between allowed (some k) indents cut c) =
      resume (between allowed none indents cut c) := by
  unfold resume
  rw [dropStale_some, if_pos stale, if_neg (by simp [free]), dropStale_none]

end Between

/-- On the way the lexer comes to a place between two tokens of a block, at a column and in front of the
rest of the text. -/
def Leads (l : Lexer) (indents : List Nat) (cut : List Token) (k : Nat) (rest : List Char) : Prop :=
  ∃ c : Cursor, c.rest = rest ∧ c.column = k ∧ Reaches l (between true none indents cut c)

theorem Leads.of_reaches {l m : Lexer} {indents : List Nat} {cut : List Token} {k : Nat}
    {rest : List Char} (first : Reaches l m) (leads : Leads m indents cut k rest) :
    Leads l indents cut k rest := by
  obtain ⟨c, left, column, second⟩ := leads
  exact ⟨c, left, column, first.trans second⟩

/-! Steps in place. -/

theorem next_ready {l : Lexer} (ready : Ready l.cursor.rest) : l.next = resume l := by
  refine next_eq ?_ (skipBlanks_ready (k := 0) rfl ready _)
  intro mark
  cases text : l.cursor.rest with
  | nil => rw [text] at mark; cases mark
  | cons ch rest =>
    rw [text, List.head?_cons, Option.some.injEq] at mark
    exact absurd (mark ▸ (ready ch rest text).1) (by decide)

section Steps

variable {allowed : Bool} {key : Option PossibleKey} {indents : List Nat} {cut : List Token}
  {c : Cursor} {k : Nat} {rest : List Char}

theorem reaches_blank (text : c.rest = ' ' :: rest) (ready : Ready rest) :
    Reaches (between allowed key indents cut c) (between allowed key indents cut c.step) := by
  have place := Cursor.step_inline text (by decide)
  refine .alike ?_ ?_ id
  · have unmarked : c.rest.head? ≠ some '\ufeff' := by
      rw [text]
      rintro ⟨⟩
    have skipped : skipBlanks (c.rest.length + 1) (between allowed key indents cut c) =
        between allowed key indents cut c.step := skipBlanks_ready (k := 1) text ready _
    rw [next_eq (l := between allowed key indents cut c) unmarked skipped,
      next_ready (l := between allowed key indents cut c.step) (by rw [place]; exact ready)]
  · change c.step.rest.length ≤ c.rest.length
    rw [Cursor.rest_step, List.length_tail]
    omega

theorem reaches_newline (text : c.rest = '\n' :: (spaces k ++ rest)) (ready : Ready rest) :
    Reaches (between allowed key indents cut c) (between true key indents cut (c.skip (k + 1))) := by
  have left : (c.skip (k + 1)).rest = rest := by rw [Cursor.skip_newline text]
  refine .alike ?_ ?_ id
  · have unmarked : c.rest.head? ≠ some '\ufeff' := by
      rw [text]
      rintro ⟨⟩
    have skipped : skipBlanks (c.rest.length + 1) (between allowed key indents cut c) =
        between true key indents cut (c.skip (k + 1)) := by
      rw [text]
      exact skipBlanks_newline text ready rfl _
    rw [next_eq (l := between allowed key indents cut c) unmarked skipped,
      next_ready (l := between true key indents cut (c.skip (k + 1))) (left ▸ ready)]
  · change (c.skip (k + 1)).rest.length ≤ c.rest.length
    rw [Cursor.rest_skip, List.length_drop]
    omega

theorem reaches_close {p : Nat} (ready : Ready c.rest) (outer : c.column < p) :
    Reaches (between allowed none (p :: indents) cut c)
      (between allowed none indents (.blockEnd :: cut) c) := by
  refine .alike ?_ (Nat.le_refl _) ?_
  · rw [next_ready (l := between allowed none (p :: indents) cut c) ready,
      next_ready (l := between allowed none indents (.blockEnd :: cut) c) ready, resume_close outer]
  · intro member
    simpa [between] using member

theorem reaches_stale {k : PossibleKey} (ready : Ready c.rest) (stale : isStale c k = true)
    (free : k.required = false) :
    Reaches (between allowed (some k) indents cut c) (between allowed none indents cut c) := by
  refine .alike ?_ (Nat.le_refl _) id
  rw [next_ready (l := between allowed (some k) indents cut c) ready,
    next_ready (l := between allowed none indents cut c) ready, resume_stale stale free]

theorem next_fresh {ch : Char} (text : c.rest = ch :: rest) (ready : Ready c.rest)
    (inner : ∀ i ∈ indents.head?, i ≤ c.column) (fresh : ∀ k ∈ key, isStale c k = false) :
    (between allowed key indents cut c).next =
      dispatch ch rest (between allowed key indents cut c) := by
  rw [next_ready (l := between allowed key indents cut c) ready, resume_token text inner fresh]

theorem next_token {ch : Char} (text : c.rest = ch :: rest) (ready : Ready c.rest)
    (inner : ∀ i ∈ indents.head?, i ≤ c.column) :
    (between allowed none indents cut c).next =
      dispatch ch rest (between allowed none indents cut c) :=
  next_fresh text ready inner fun k h => absurd h (Option.not_mem_none k)

end Steps

end Lexer

end NamespacePlan.Yaml
