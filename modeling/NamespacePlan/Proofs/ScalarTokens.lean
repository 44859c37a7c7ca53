import NamespacePlan.Proofs.LexerSteps
import NamespacePlan.Proofs.PlainScalars
import NamespacePlan.Proofs.QuotedScalars

/-! The token of a written text: in front of a colon it may be a key, and at the end of a line the lexer
goes on to the next one. -/
namespace NamespacePlan.Yaml

open Style

namespace Lexer

/-! What the first character tells. -/

variable {rest : List Char}

theorem dispatch_single (l : Lexer) : dispatch '\'' rest l = l.keyLike (quoted false) := by
  simp [dispatch]

theorem dispatch_double (l : Lexer) : dispatch '"' rest l = l.keyLike (quoted true) := by
  simp [dispatch]

section First

variable {ch : Char} {r : List Char} (first : startsAsIndicator (ch :: r) = false)
  (ahead : r ≠ [] → blankAhead rest = blankAhead r)

include first

theorem ne_of_first {d : Char} (listed : ['#', ',', '[', ']', '\x7b', '\x7d', '&', '*', '!', '|', '>',
    '\'', '"', '%', '@', '\x60'].contains d = true) : ch ≠ d := by
  rintro rfl
  rw [startsAsIndicator, listed, Bool.true_or] at first
  cases first

include ahead

/-- No blank follows a character that would be an indicator before one. -/
theorem blankAhead_of_first {d : Char} (kind : (d == '?' || d == ':' || d == '-') = true)
    (same : ch = d) : blankAhead rest = false := by
  subst same
  have next : blankAhead r = false := by
    simp only [startsAsIndicator, Bool.or_eq_false_iff] at first
    have both := first.2
    rwa [kind, Bool.true_and] at both
  have more : r ≠ [] := by
    rintro rfl
    cases next
  rw [ahead more, next]

theorem beginsPlain_of_first (inline : isInline ch = true) (space : ch ≠ ' ') :
    beginsPlain false ch rest = true := by
  unfold beginsPlain
  by_cases dash : ch = '-'
  · simp [dash, blankAhead_of_first first ahead (d := '-') rfl dash]
  · by_cases query : ch = '?' ∨ ch = ':'
    · have none : blankAhead rest = false :=
        query.elim (blankAhead_of_first first ahead rfl) (blankAhead_of_first first ahead rfl)
      simp [query, none]
    · have listed : [',', '[', ']', '\x7b', '\x7d', '#', '&', '*', '!', '|', '>', '\'', '"', '%', '@',
          '\x60'].contains ch = false := by
        rw [← Bool.not_eq_true]
        intro listed
        refine ne_of_first first ?_ rfl
        simp only [List.contains_cons] at listed ⊢
        rw [← listed]
        ac_rfl
      rw [if_neg dash, if_neg query, isBlankOrBreak_eq inline, beq_eq_false_iff_ne.2 space, listed]
      rfl

theorem dispatch_plain (inline : isInline ch = true) (space : ch ≠ ' ') {l : Lexer}
    (text : l.cursor.rest = ch :: rest) (mark : startsAsMark (ch :: rest) = false)
    (block : l.outer = []) : dispatch ch rest l = l.plain := by
  have unmarked : l.cursor.atMark = false := by rw [Cursor.atMark, text, mark]; rfl
  have outside : l.inFlow = false := by rw [inFlow, block]; rfl
  have begins := beginsPlain_of_first first ahead inline space
  have no : ∀ d, ['#', ',', '[', ']', '\x7b', '\x7d', '&', '*', '!', '|', '>', '\'', '"', '%', '@',
      '\x60'].contains d = true → (ch = d) = False := fun d h => eq_false (ne_of_first first h)
  have directive : (ch == '%') = false := beq_eq_false_iff_ne.2 (ne_of_first first rfl)
  simp only [dispatch, unmarked, outside, begins, directive, no '[' rfl, no '\x7b' rfl, no ']' rfl, no '\x7d' rfl, no ',' rfl, no '*' rfl, no '&' rfl,
    no '!' rfl, no '|' rfl, no '>' rfl, no '\'' rfl, no '"' rfl, Bool.and_false, Bool.false_eq_true,
    if_false, if_true, false_and, Bool.false_or]
  have dash := blankAhead_of_first first ahead (d := '-') rfl
  have query := blankAhead_of_first first ahead (d := '?') rfl
  have colon := blankAhead_of_first first ahead (d := ':') rfl
  rw [if_neg (by simpa using dash), if_neg (by simpa using query), if_neg (by simpa using colon)]

end First

/-! Beginnings. -/

/-- The beginning of a token of a block, or the end. -/
structure Starts (cs : List Char) : Prop where
  ready : Ready cs
  unmarked : startsAsMark cs = false

theorem starts_nil : Starts [] := ⟨ready_nil, rfl⟩

theorem starts_cons {ch : Char} (inline : isInline ch = true) (space : ch ≠ ' ') (mark : ch ≠ '#')
    (dash : ch ≠ '-') (dot : ch ≠ '.') (rest : List Char) : Starts (ch :: rest) := by
  refine ⟨ready_cons inline space mark rest, ?_⟩
  simp [startsAsMark, List.isPrefixOf, Ne.symm dash, Ne.symm dot]

/-- A dash before a blank begins no mark. -/
theorem starts_dash {rest : List Char} (blank : blankAhead rest = true) : Starts ('-' :: rest) := by
  refine ⟨ready_cons (by decide) (by decide) (by decide) rest, ?_⟩
  cases rest with
  | nil => rfl
  | cons ch rest =>
    have dash : ch ≠ '-' := by
      rintro rfl
      cases blank
    simp [startsAsMark, List.isPrefixOf, Ne.symm dash]

theorem starts_plain {m : Margin} {col : Nat} {cs tail : List Char} (allowed : allowsPlain cs = true)
    (apart : ∀ x ∈ tail.head?, x ≠ '-' ∧ x ≠ '.') : Starts (Scalar.plain m col false cs ++ tail) := by
  obtain ⟨more, begins, unmarked, _⟩ := ScalarText.begins_of_allowsPlain allowed
  obtain ⟨y, ys, text, inline, space, mark, _⟩ :=
    ScalarText.plain_begins (m := m) col false more begins tail
  have first : startsAsMark (Scalar.plain m col false cs ++ tail) = false := by
    rw [startsAsMark, Bool.or_eq_false_iff] at unmarked ⊢
    constructor
    · refine Bool.eq_false_iff.2 fun h => Bool.eq_false_iff.1 unmarked.1 ?_
      refine Scalar.isPrefixOf_plain (by decide) (fun x head member => (apart x head).1 ?_) h
      simpa using member
    · refine Bool.eq_false_iff.2 fun h => Bool.eq_false_iff.1 unmarked.2 ?_
      refine Scalar.isPrefixOf_plain (by decide) (fun x head member => (apart x head).2 ?_) h
      simpa using member
  refine ⟨?_, first⟩
  rw [text]
  exact ready_cons inline space mark ys

/-! Scalars. -/

/-- A key that begins at a place. -/
def begun (indents : List Nat) (cut : List Token) (c : Cursor) : PossibleKey :=
  ⟨indents.head? == some c.column, c.index, c.line, c.column, cut.length⟩

/-- What the lexer remembers of a place where a key may begin. -/
def possible (allowed : Bool) (indents : List Nat) (cut : List Token) (c : Cursor) :
    Option PossibleKey :=
  if allowed then some (begun indents cut c) else none

theorem length_write_pos {m : Margin} {style : Style} {col : Nat} {cs : List Char}
    (more : style = .plain → cs ≠ []) : 0 < (Scalar.write m style col cs).length := by
  cases style with
  | plain =>
    exact Nat.lt_of_lt_of_le (List.length_pos_iff.2 (more rfl)) (Scalar.length_le_plain col false cs)
  | single => exact Nat.succ_pos _
  | double => exact Nat.succ_pos _

section Scalars

variable {allowed : Bool} {indents : List Nat} {cut : List Token} {c : Cursor}

theorem saveKey_between : (between allowed none indents cut c).saveKey =
    .ok (between allowed (possible allowed indents cut c) indents cut c) := by
  cases allowed with
  | false => rfl
  | true =>
    have level : ((between true none indents cut c).indent == (c.column : Int)) =
        (indents.head? == some c.column) := by
      cases indents with
      | nil => rfl
      | cons i is =>
        rw [Bool.eq_iff_iff, beq_iff_eq, beq_iff_eq, List.head?_cons, Option.some.injEq]
        exact Int.ofNat_inj
    change Except.ok _ = Except.ok _
    rw [possible, if_pos rfl, begun, ← level]
    rfl

theorem keyLike_between {read : Cursor → Except Fault (Token × Cursor)} {t : Token} {next : Cursor}
    (reads : read c = .ok (t, next)) :
    (between allowed none indents cut c).keyLike read =
      .ok (between false (possible allowed indents cut c) indents (t :: cut) next) := by
  let m := between allowed (possible allowed indents cut c) indents cut c
  have here : read m.cursor = .ok (t, next) := reads
  rw [keyLike, saveKey_between]
  simp only [bind, Except.bind]
  rw [here]
  rfl

theorem plain_between {text : List Char} {next : Cursor} {ended : Bool}
    (reads : ScalarText.plain false ((between allowed none indents cut c).indent + 1)
      c.rest.length c = (text, next, ended)) :
    (between allowed none indents cut c).plain =
      .ok (between ended (possible allowed indents cut c) indents
        (.scalar (some text) true :: cut) next) := by
  let m := between allowed (possible allowed indents cut c) indents cut c
  have here : ScalarText.plain m.inFlow (m.indent + 1) m.cursor.rest.length m.cursor =
      (text, next, ended) := reads
  rw [plain, saveKey_between]
  simp only [bind, Except.bind]
  rw [here]
  rfl

variable {m : Margin} {col : Nat} {cs tail : List Char}

/-- A text in quotes. -/
theorem next_quoted {style : Style} (quoted : style ≠ .plain)
    (single : style = .single → ScalarText.Roomy m cs ∧ allowsSingle cs = true)
    (roomy : m.folds = true → 0 < m.indent ∧ m.indent < Scalar.bestWidth)
    (text : c.rest = Scalar.write m style col cs ++ tail) (close : tail.head? ≠ some '\'')
    (inner : ∀ i ∈ indents.head?, i ≤ c.column) :
    (between allowed none indents cut c).next =
      .ok (between false (possible allowed indents cut c) indents (.scalar (some cs) false :: cut)
        (c.skip (Scalar.write m style col cs).length)) := by
  cases style with
  | plain => exact absurd rfl quoted
  | single =>
    obtain ⟨roomy, shown⟩ := single rfl
    obtain ⟨r, here⟩ : ∃ r, c.rest = '\'' :: r := ⟨_, text⟩
    have ready : Ready c.rest := here ▸ ready_cons (by decide) (by decide) (by decide) r
    rw [next_token here ready inner, dispatch_single,
      keyLike_between (quoted_single roomy shown text close)]
  | double =>
    obtain ⟨r, here⟩ : ∃ r, c.rest = '"' :: r := ⟨_, text⟩
    have ready : Ready c.rest := here ▸ ready_cons (by decide) (by decide) (by decide) r
    rw [next_token here ready inner, dispatch_double, keyLike_between (quoted_double roomy text)]

/-- A text without quotes, whatever the lexer finds behind it. -/
theorem next_plain {ended : Bool} {next : Cursor} (shown : allowsPlain cs = true)
    (apart : ∀ x ∈ tail.head?, x ≠ '-' ∧ x ≠ '.')
    (text : c.rest = Scalar.plain m col false cs ++ tail)
    (inner : ∀ i ∈ indents.head?, i ≤ c.column)
    (reads : ScalarText.plain false ((between allowed none indents cut c).indent + 1) c.rest.length c
      = (cs, next, ended)) :
    (between allowed none indents cut c).next =
      .ok (between ended (possible allowed indents cut c) indents (.scalar (some cs) true :: cut)
        next) := by
  have starts : Starts c.rest := text ▸ starts_plain shown apart
  obtain ⟨more, begins, _, first⟩ := ScalarText.begins_of_allowsPlain shown
  obtain ⟨x, r, rfl⟩ := List.exists_cons_of_ne_nil more
  have space : x ≠ ' ' := by simpa using begins.first
  have here : c.rest = x :: (Scalar.plain m (col + 1) false r ++ tail) := by
    rw [text, Scalar.plain_cons col false space]
    rfl
  have unmarked := starts.unmarked
  rw [here] at unmarked
  rw [next_token here starts.ready inner,
    dispatch_plain first (fun more => Scalar.blankAhead_plain _ _ more _) begins.inline.head space
      here unmarked rfl,
    plain_between reads]

end Scalars

/-! Keys. -/

/-- The token of a text: whether it stands without quotes does not depend on what follows it. -/
def textToken (cs : List Char) : Token :=
  .scalar (some cs) (decide (ImplicitType.of cs = .text) && allowsPlain cs)

theorem style_cases (key : Bool) (cs : List Char) :
    (Style.of key cs = .plain ∧ allowsPlain cs = true ∧ textToken cs = .scalar (some cs) true) ∨
      Style.of key cs ≠ .plain ∧ textToken cs = .scalar (some cs) false ∧
        (Style.of key cs = .single → allowsSingle cs = true) := by
  unfold Style.of textToken
  cases plain : decide (ImplicitType.of cs = .text) && allowsPlain cs with
  | true =>
    rw [Bool.and_eq_true] at plain
    exact Or.inl ⟨if_pos rfl, plain.2, rfl⟩
  | false =>
    refine Or.inr ⟨?_, rfl, ?_⟩
    · simp only [Bool.false_eq_true, if_false]
      split <;> decide
    · intro single
      simp only [Bool.false_eq_true, if_false] at single
      split at single
      · next kept =>
        rw [Bool.and_eq_true] at kept
        exact kept.1
      · cases single

theorem starts_write {m : Margin} {key : Bool} {col : Nat} {cs tail : List Char}
    (apart : ∀ x ∈ tail.head?, x ≠ '-' ∧ x ≠ '.') :
    Starts (Scalar.write m (Style.of key cs) col cs ++ tail) := by
  rcases style_cases key cs with ⟨plain, shown, _⟩ | ⟨quoted, _, _⟩
  · rw [plain]
    exact starts_plain shown apart
  · cases style : Style.of key cs with
    | plain => exact absurd style quoted
    | single => exact starts_cons (by decide) (by decide) (by decide) (by decide) (by decide) _
    | double => exact starts_cons (by decide) (by decide) (by decide) (by decide) (by decide) _

theorem newline_not_mem {cs : List Char} (simple : isSimpleKey cs = true) : '\n' ∉ cs := by
  intro member
  simp only [isSimpleKey, Bool.and_eq_true, Bool.not_eq_true'] at simple
  exact absurd rfl (List.any_eq_false.1 simple.1.2 '\n' member)

section Keys

variable {allowed : Bool} {indents : List Nat} {cut : List Token} {c : Cursor} {cs rest : List Char}

theorem next_key (simple : isSimpleKey cs = true) (text : c.rest = writeKey cs ++ ':' :: rest)
    (blank : blankAhead rest = true) (inner : ∀ i ∈ indents.head?, i ≤ c.column) :
    (between allowed none indents cut c).next =
      .ok (between false (possible allowed indents cut c) indents (textToken cs :: cut)
        (c.skip (writeKey cs).length)) := by
  unfold writeKey at text ⊢
  rcases style_cases true cs with ⟨plain, shown, token⟩ | ⟨quoted, token, single⟩
  · rw [plain] at text ⊢
    rw [token]
    have inside : (between allowed none indents cut c).indent + 1 ≤ (c.column : Int) + 1 := by
      cases indents with
      | nil =>
        change (-1 : Int) + 1 ≤ c.column + 1
        omega
      | cons i is => simpa [indent, between] using inner i rfl
    have enough : cs.length ≤ c.rest.length := by
      have long := Scalar.length_le_plain (m := ⟨0, false⟩) 0 false cs
      rw [text, List.length_append]
      exact Nat.le_add_right_of_le long
    exact next_plain shown (by simp) text inner
      (ScalarText.plain_key (m := ⟨0, false⟩) shown (fun folds => absurd folds Bool.false_ne_true)
        inside text blank enough)
  · rw [token]
    exact next_quoted (m := ⟨0, false⟩) quoted
      (fun h => ⟨Or.inr ⟨rfl, newline_not_mem simple⟩, single h⟩)
      (fun folds => absurd folds Bool.false_ne_true) text (by simp) inner

end Keys

/-! Values. -/

section Values

variable {allowed ended : Bool} {indent k : Nat} {indents : List Nat} {cut cut' : List Token}
  {c next : Cursor} {cs rest : List Char}

/-- On a later line a value is no key any more. -/
theorem reaches_later (inside : indent < c.column) (later : c.line < next.line)
    (ready : Ready next.rest) :
    Reaches (between ended (possible allowed (indent :: indents) cut c) (indent :: indents) cut' next)
      (between ended none (indent :: indents) cut' next) := by
  cases allowed with
  | false => exact .refl _
  | true =>
    refine reaches_stale ready ?_ ?_
    · simp [isStale, begun, Nat.ne_of_lt later]
    · simp [begun, Nat.ne_of_lt inside]

/-- The end of a line behind a value. -/
theorem reaches_end (inside : indent < c.column) (same : c.line ≤ next.line)
    (text : next.rest = '\n' :: (spaces k ++ rest)) (ready : Ready rest) :
    Leads (between ended (possible allowed (indent :: indents) cut c) (indent :: indents) cut' next)
      (indent :: indents) cut' k rest := by
  have place := Cursor.skip_newline text
  refine ⟨next.skip (k + 1), by rw [place], by rw [place], ?_⟩
  refine (reaches_newline text ready).trans (reaches_later inside ?_ (by rwa [place]))
  rw [place]
  exact Nat.lt_succ_of_le same

theorem reaches_plain {m : Margin} {col : Nat} (shown : allowsPlain cs = true)
    (roomy : m.folds = true → m.indent = indent + 2)
    (inside : indent < c.column) (low : k ≤ indent)
    (text : c.rest = Scalar.plain m col false cs ++ '\n' :: (spaces k ++ rest))
    (starts : Starts rest) :
    Leads (between allowed none (indent :: indents) cut c) (indent :: indents)
      (.scalar (some cs) true :: cut) k rest := by
  let behind := c.skip (Scalar.plain m col false cs).length
  have left : behind.rest = '\n' :: (spaces k ++ rest) := Cursor.rest_skip_append text
  have place := Cursor.skip_newline left
  have enough : cs.length ≤ c.rest.length := by
    have long := Scalar.length_le_plain (m := m) col false cs
    rw [text, List.length_append]
    exact Nat.le_add_right_of_le long
  have reads : ScalarText.plain false ((indent : Int) + 1) c.rest.length c =
      (cs, behind.skip (k + 1), true) :=
    ScalarText.plain_value shown (fun folds => by have := roomy folds; omega) (by omega) text
      (by omega) starts.unmarked
      (fun ch cs h => ⟨(starts.ready ch cs h).1, (starts.ready ch cs h).2.1⟩) enough
  have later : c.line < (behind.skip (k + 1)).line := by
    rw [place]
    exact Nat.lt_succ_of_le (Cursor.line_le_skip _ c)
  refine ⟨behind.skip (k + 1), by rw [place], by rw [place], ?_⟩
  refine .step (next_plain shown (by simp) text (by simp; omega) reads) ?_ ?_
    (reaches_later inside later (by rw [place]; exact starts.ready))
  · change (behind.skip (k + 1)).rest.length < c.rest.length
    rw [place, text, List.length_append, List.length_cons, List.length_append]
    change rest.length < _
    omega
  · simp [between]

theorem reaches_text {col : Nat} {s : String} (narrow : indent + 2 < Scalar.bestWidth)
    (inside : indent < c.column) (low : k ≤ indent)
    (text : c.rest = writeText indent col s ++ '\n' :: (spaces k ++ rest)) (starts : Starts rest) :
    Leads (between allowed none (indent :: indents) cut c) (indent :: indents)
      (textToken s.toList :: cut) k rest := by
  unfold writeText at text
  rcases style_cases false s.toList with ⟨plain, shown, token⟩ | ⟨quoted, token, single⟩
  · rw [plain] at text
    rw [token]
    exact reaches_plain shown (fun _ => rfl) inside low text starts
  · rw [token]
    have reads : (between allowed none (indent :: indents) cut c).next = _ :=
      next_quoted quoted (fun h => ⟨Or.inl (Nat.succ_pos _), single h⟩)
        (fun _ => ⟨Nat.succ_pos _, narrow⟩) text (by simp) (by simp; omega)
    refine .of_reaches (.step reads ?_ ?_ (.refl _))
      (reaches_end inside (Cursor.line_le_skip _ c) (Cursor.rest_skip_append text) starts.ready)
    · exact Cursor.length_skip_lt (length_write_pos fun h => absurd h quoted) (by rw [text]; simp)
    · simp [between]

end Values

end Lexer

end NamespacePlan.Yaml
