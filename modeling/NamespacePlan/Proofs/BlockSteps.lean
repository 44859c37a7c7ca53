import NamespacePlan.Proofs.WrittenLines

/-! Steps over the indicators of a block, and over a key that shares its line with the value. A mapping
or sequence begins with the first of its entries, which lies further to the right than all open ones. -/
namespace NamespacePlan.Yaml

open Style

namespace Lexer

/-- The open columns and tokens before an entry at a column, and the columns around its collection and
the tokens once that is open. -/
inductive Opens (start : Token) (column : Nat) :
    List Nat → List Token → List Nat → List Token → Prop where
  | first {indents : List Nat} {cut : List Token} (inner : ∀ i ∈ indents.head?, i < column) :
    Opens start column indents cut indents (start :: cut)
  | again {indents : List Nat} {cut : List Token} :
    Opens start column (column :: indents) cut indents cut

section Opens

variable {start : Token} {column : Nat} {indents is : List Nat} {cut ts : List Token}

theorem Opens.inner (opens : Opens start column indents cut is ts) :
    ∀ i ∈ indents.head?, i ≤ column := by
  cases opens with
  | first inner => exact fun i h => Nat.le_of_lt (inner i h)
  | again =>
    rintro i ⟨⟩
    exact Nat.le_refl _

theorem Opens.openBlock_eq (opens : Opens start column indents cut is ts) (allowed : Bool)
    (key : Option PossibleKey) (c : Cursor) :
    (between allowed key indents cut c).openBlock start column =
      between allowed key (column :: is) ts c := by
  cases opens with
  | first inner =>
    have right : (between allowed key indents cut c).indent < (column : Int) := by
      cases indents with
      | nil => exact Int.lt_of_lt_of_le (Int.negSucc_lt_zero 0) (Int.natCast_nonneg column)
      | cons i indents => exact Int.ofNat_lt.2 (inner i rfl)
    rw [openBlock, if_pos right]
    rfl
  | again => exact if_neg (Int.lt_irrefl _)

theorem Opens.keeps (opens : Opens start column indents cut is ts) (other : start ≠ .streamEnd)
    (member : .streamEnd ∈ ts) : .streamEnd ∈ cut := by
  cases opens with
  | first => exact (List.mem_cons.1 member).resolve_left (Ne.symm other)
  | again => exact member

end Opens

/-! Indicators. -/

section Indicators

variable {indents is : List Nat} {cut ts : List Token} {c : Cursor} {rest : List Char}

theorem dispatch_entry {l m : Lexer} (blank : blankAhead rest = true)
    (unmarked : l.cursor.atMark = false) (entry : l.blockEntry = .ok m) :
    dispatch '-' rest l = .ok m := by
  simpa [dispatch, blank, unmarked] using entry

theorem dispatch_query {l m : Lexer} (blank : blankAhead rest = true) (mark : l.keyMark = .ok m) :
    dispatch '?' rest l = .ok m := by
  simpa [dispatch, blank] using mark

theorem dispatch_colon (l : Lexer) (blank : blankAhead rest = true) :
    dispatch ':' rest l = l.valueMark := by
  simp [dispatch, blank]

theorem reaches_mark {start t : Token} {ch : Char}
    (opens : Opens start c.column indents cut is ts) (text : c.rest = ch :: rest)
    (ready : Ready c.rest)
    (step : dispatch ch rest (between true none indents cut c) =
      .ok (between true none (c.column :: is) (t :: ts) c.step))
    (other : start ≠ .streamEnd ∧ t ≠ .streamEnd) :
    Reaches (between true none indents cut c)
      (between true none (c.column :: is) (t :: ts) c.step) := by
  refine .step ((next_token text ready opens.inner).trans step) (Cursor.length_step_lt text) ?_
    (.refl _)
  intro member
  exact opens.keeps other.1 ((List.mem_cons.1 member).resolve_left (Ne.symm other.2))

theorem reaches_entry (opens : Opens .blockSequenceStart c.column indents cut is ts)
    (text : c.rest = '-' :: rest) (blank : blankAhead rest = true) :
    Reaches (between true none indents cut c)
      (between true none (c.column :: is) (.blockEntry :: ts) c.step) := by
  have starts : Starts c.rest := text ▸ starts_dash blank
  have unmarked : c.atMark = false := by rw [Cursor.atMark, starts.unmarked]; rfl
  refine reaches_mark opens text starts.ready (dispatch_entry blank unmarked ?_) (by simp)
  change ((between true none indents cut c).openBlock .blockSequenceStart c.column).dropKey.map _ = _
  rw [opens.openBlock_eq]
  rfl

theorem reaches_query (opens : Opens .blockMappingStart c.column indents cut is ts)
    (text : c.rest = '?' :: rest) (blank : blankAhead rest = true) :
    Reaches (between true none indents cut c)
      (between true none (c.column :: is) (.key :: ts) c.step) := by
  have ready : Ready c.rest := text ▸ ready_cons (by decide) (by decide) (by decide) rest
  refine reaches_mark opens text ready (dispatch_query blank ?_) (by simp)
  change ((between true none indents cut c).openBlock .blockMappingStart c.column).dropKey.map _ = _
  rw [opens.openBlock_eq]
  rfl

theorem reaches_colon (text : c.rest = ':' :: rest) (blank : blankAhead rest = true) :
    Reaches (between true none (c.column :: indents) cut c)
      (between true none (c.column :: indents) (.value :: cut) c.step) := by
  have ready : Ready c.rest := text ▸ ready_cons (by decide) (by decide) (by decide) rest
  have opens : Opens .blockMappingStart c.column (c.column :: indents) cut indents cut :=
    .again
  refine reaches_mark opens text ready ((dispatch_colon _ blank).trans ?_) (by simp)
  have same := opens.openBlock_eq true none c
  have outside : (between true none (c.column :: indents) cut c).inFlow = false := rfl
  unfold valueMark
  simp only [outside, Bool.false_eq_true, if_false]
  rw [show (between true none (c.column :: indents) cut c).cursor = c from rfl, same]
  rfl

end Indicators

/-! Keys in front of their colon. -/

section Keys

variable {indents is : List Nat} {cut ts : List Token} {c : Cursor} {cs rest : List Char}

theorem insertKey_begun (opens : Opens .blockMappingStart c.column indents cut is ts) (t : Token)
    (key : Option PossibleKey) (next : Cursor) :
    (between false key indents (t :: cut) next).insertKey (begun indents cut c) =
      between false key (c.column :: is) (t :: .key :: ts) next := by
  have one : (t :: cut).length - cut.length = 1 := by simp
  have same := opens.openBlock_eq false key next
  have before : insertKey (begun indents cut c) (between false key indents (t :: cut) next) =
      { (between false key indents cut next).openBlock .blockMappingStart c.column with
        cut := [t] ++ .key ::
          ((between false key indents cut next).openBlock .blockMappingStart c.column).cut } := by
    unfold insertKey
    simp only [begun, between, one]
    rfl
  rw [before, same]
  rfl

theorem isStale_begun (simple : isSimpleKey cs = true) (text : c.rest = writeKey cs ++ ':' :: rest) :
    isStale (c.skip (writeKey cs).length) (begun indents cut c) =
      decide (keyReach < (writeKey cs).length) := by
  rw [Cursor.skip_inline text (inline_writeKey simple)]
  simp [isStale, begun]

section Colon

variable (simple : isSimpleKey cs = true) (text : c.rest = writeKey cs ++ ':' :: rest)
  (blank : blankAhead rest = true)

include simple text blank

theorem next_colon (inner : ∀ i ∈ indents.head?, i ≤ c.column) {key : Option PossibleKey}
    (fresh : ∀ k ∈ key, isStale (c.skip (writeKey cs).length) k = false) (ts : List Token) :
    (between false key indents ts (c.skip (writeKey cs).length)).next =
      (between false key indents ts (c.skip (writeKey cs).length)).valueMark := by
  have left : (c.skip (writeKey cs).length).rest = ':' :: rest := Cursor.rest_skip_append text
  have far : ∀ i ∈ indents.head?, i ≤ (c.skip (writeKey cs).length).column := by
    intro i h
    rw [Cursor.skip_inline text (inline_writeKey simple)]
    exact Nat.le_add_right_of_le (inner i h)
  have ready : Ready (':' :: rest) := ready_cons (by decide) (by decide) (by decide) rest
  rw [next_fresh left (left ▸ ready) far fresh, dispatch_colon _ blank]

theorem reaches_key (near : (writeKey cs).length ≤ keyReach)
    (opens : Opens .blockMappingStart c.column indents cut is ts) :
    Reaches (between true none indents cut c)
      (between false none (c.column :: is) (.value :: textToken cs :: .key :: ts)
        (c.skip (writeKey cs).length).step) := by
  have fresh : ∀ k ∈ some (begun indents cut c), isStale (c.skip (writeKey cs).length) k = false := by
    rintro k ⟨⟩
    rw [isStale_begun simple text]
    exact decide_eq_false (Nat.not_lt.2 near)
  have behind := insertKey_begun opens (textToken cs) (some (begun indents cut c))
    (c.skip (writeKey cs).length)
  have mark : valueMark (between false (some (begun indents cut c)) indents (textToken cs :: cut)
      (c.skip (writeKey cs).length)) = .ok (between false none (c.column :: is)
        (.value :: textToken cs :: .key :: ts) (c.skip (writeKey cs).length).step) := by
    unfold valueMark
    simp only [between] at behind ⊢
    rw [behind]
    rfl
  have left : (c.skip (writeKey cs).length).rest = ':' :: rest := Cursor.rest_skip_append text
  have more : cs ≠ [] := by
    rintro rfl
    cases simple
  refine .step (next_key simple text blank opens.inner) ?_ ?_
    (.step ((next_colon simple text blank opens.inner fresh _).trans mark)
      (Cursor.length_step_lt left) ?_ (.refl _))
  · exact Cursor.length_skip_lt (length_write_pos fun _ => more) (by rw [text]; simp)
  · simp [between, textToken]
  · intro member
    have old : .streamEnd ∈ ts := by simpa [between, textToken] using member
    exact List.mem_cons_of_mem _ (opens.keeps (by simp) old)

theorem fails_key (far : keyReach < (writeKey cs).length) (inner : ∀ i ∈ indents.head?, i ≤ c.column) :
    Fails (between true none indents cut c) := by
  have stale : isStale (c.skip (writeKey cs).length) (begun indents cut c) = true := by
    rw [isStale_begun simple text]
    exact decide_eq_true far
  have left : (c.skip (writeKey cs).length).rest = ':' :: rest := Cursor.rest_skip_append text
  have ready : Ready (c.skip (writeKey cs).length).rest :=
    left ▸ ready_cons (by decide) (by decide) (by decide) rest
  have more : cs ≠ [] := by
    rintro rfl
    cases simple
  refine ⟨_, .malformed, .step (next_key simple text blank inner) ?_ ?_ (.refl _), ?_⟩
  · exact Cursor.length_skip_lt (length_write_pos fun _ => more) (by rw [text]; simp)
  · simp [between, textToken]
  · rw [next_ready ready]
    cases required : (begun indents cut c).required with
    | true =>
      change resume (between false (some (begun indents cut c)) _ _ _) = _
      rw [resume, dropStale_some, if_pos stale, if_pos required]
      rfl
    | false =>
      change resume (between false (some (begun indents cut c)) _ _ _) = _
      rw [resume_stale stale required, ← next_ready (l := between _ _ _ _ _) ready,
        next_colon simple text blank inner fun k h => absurd h (Option.not_mem_none k)]
      rfl

end Colon

/-- A key behind its mark, with the colon on the next line. -/
theorem reaches_marked {indent : Nat} {k : String} (narrow : indent + 2 < Scalar.bestWidth)
    (place : c.column = indent) (opens : Opens .blockMappingStart indent indents cut is ts)
    {col : Nat}
    (text : c.rest = '?' :: ' ' :: writeText indent col k ++ '\n' :: (spaces indent ++ ':' :: rest))
    (blank : blankAhead rest = true) :
    Leads (between true none indents cut c) (indent :: is)
      (.value :: textToken k.toList :: .key :: ts) (indent + 1) rest := by
  subst place
  have left : c.step.rest = ' ' :: (writeText c.column col k ++
      '\n' :: (spaces c.column ++ ':' :: rest)) := Cursor.rest_step_cons text
  have first := Cursor.step_inline text (by decide)
  have second := Cursor.step_inline left (by decide)
  have colon : Starts (':' :: rest) :=
    starts_cons (by decide) (by decide) (by decide) (by decide) (by decide) rest
  obtain ⟨cur, here, column, scalar⟩ : Leads (between true none (c.column :: is) (.key :: ts)
      c.step.step) (c.column :: is) (textToken k.toList :: .key :: ts) c.column (':' :: rest) := by
    refine reaches_text narrow ?_ (Nat.le_refl _) (by rw [second]) colon
    rw [second, first]
    exact Nat.lt_succ_of_lt (Nat.lt_succ_self _)
  refine ⟨cur.step, Cursor.rest_step_cons here, ?_, ?_⟩
  · rw [Cursor.step_inline here (by decide), column]
  · refine (reaches_query opens text rfl).trans
      ((reaches_blank left (starts_write (by simp)).ready).trans (scalar.trans ?_))
    rw [← column]
    exact reaches_colon here blank

end Keys

/-! Empty collections. -/

section Brackets

variable {allowed : Bool} {indent k : Nat} {indents : List Nat} {cut : List Token} {c : Cursor}
  {rest : List Char} {key : Option PossibleKey}

/-- A state behind one open bracket. -/
def enclosed (key : Option PossibleKey) (indents : List Nat) (cut : List Token) (c : Cursor) :
    Lexer :=
  { cursor := c, indents := indents, outer := [key], cut := cut }

theorem openFlow_between (t : Token) : (between allowed none indents cut c).openFlow t =
    .ok (enclosed (possible allowed indents cut c) indents (t :: cut) c.step) := by
  rw [openFlow, saveKey_between]
  rfl

theorem next_enclosed {ch : Char} (text : c.rest = ch :: rest) (ready : Ready c.rest)
    (fresh : ∀ k ∈ key, isStale c k = false) :
    (enclosed key indents cut c).next = dispatch ch rest (enclosed key indents cut c) := by
  have kept : (enclosed key indents cut c).dropStale = .ok (enclosed key indents cut c) := by
    cases key with
    | none => rfl
    | some k => simp [dropStale, enclosed, fresh k rfl]
  have here : (enclosed key indents cut c).cursor.rest = ch :: rest := text
  rw [next_ready (l := enclosed key indents cut c) ready, resume, kept]
  change meet (enclosed key indents cut c) = _
  rw [meet, here]

theorem closeFlow_enclosed (t : Token) : (enclosed key indents cut c).closeFlow t =
    .ok (between false key indents (t :: cut) c.step) := rfl

/-- Two brackets and their tokens. -/
structure Brackets (a b : Char) (s t : Token) : Prop where
  shown : Inline [a, b]
  first : a ≠ ' ' ∧ a ≠ '#'
  last : b ≠ ' ' ∧ b ≠ '#'
  opening : ∀ (rest : List Char) (l : Lexer), dispatch a rest l = l.openFlow s
  closing : ∀ (rest : List Char) (l : Lexer), dispatch b rest l = l.closeFlow t
  other : s ≠ .streamEnd ∧ t ≠ .streamEnd

theorem brackets_square : Brackets '[' ']' .flowSequenceStart .flowSequenceEnd where
  shown := by decide
  first := by decide
  last := by decide
  opening := by simp [dispatch]
  closing := by simp [dispatch]
  other := by decide

theorem brackets_curly : Brackets '\x7b' '\x7d' .flowMappingStart .flowMappingEnd where
  shown := by decide
  first := by decide
  last := by decide
  opening := by simp [dispatch]
  closing := by simp [dispatch]
  other := by decide

/-- Two brackets with nothing between them, at the end of a line. -/
theorem reaches_brackets {a b : Char} {s t : Token} (pair : Brackets a b s t)
    (inside : indent < c.column) (text : c.rest = a :: b :: '\n' :: (spaces k ++ rest))
    (ready : Ready rest) :
    Leads (between allowed none (indent :: indents) cut c) (indent :: indents) (t :: s :: cut) k
      rest := by
  have place := Cursor.step_inline text pair.shown.head
  have next : c.step.rest = b :: '\n' :: (spaces k ++ rest) := Cursor.rest_step_cons text
  have fresh : ∀ x ∈ possible allowed (indent :: indents) cut c, isStale c.step x = false := by
    intro x member
    cases allowed with
    | false => cases member
    | true =>
      cases member
      rw [place]
      simp [isStale, begun, keyReach]
  have opened : (between allowed none (indent :: indents) cut c).next = _ :=
    (next_token text (text ▸ ready_cons pair.shown.head pair.first.1 pair.first.2 _)
      (by simp; omega)).trans ((pair.opening _ _).trans (openFlow_between s))
  have closed : (enclosed (possible allowed (indent :: indents) cut c) (indent :: indents) (s :: cut)
      c.step).next = _ :=
    (next_enclosed next (next ▸ ready_cons pair.shown.tail.head pair.last.1 pair.last.2 _)
      fresh).trans ((pair.closing _ _).trans (closeFlow_enclosed t))
  have behind : (c.skip 2).rest = '\n' :: (spaces k ++ rest) := Cursor.rest_step_cons next
  refine .of_reaches (.step opened (Cursor.length_step_lt text) ?_
    (.step closed (Cursor.length_step_lt next) ?_ (.refl _)))
    (reaches_end inside (Cursor.line_le_skip 2 c) behind ready)
  · intro member
    exact (List.mem_cons.1 member).resolve_left (Ne.symm pair.other.1)
  · intro member
    exact (List.mem_cons.1 member).resolve_left (Ne.symm pair.other.2)

end Brackets

end Lexer

end NamespacePlan.Yaml
