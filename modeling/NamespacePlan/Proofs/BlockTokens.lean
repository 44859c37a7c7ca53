import NamespacePlan.Proofs.BlockSteps

/-! The tokens of data as they are written. The lexer gets through a value with the tokens that the value
should have, unless it meets a key whose colon lies beyond its reach. -/
namespace NamespacePlan

namespace Datum

mutual

/-- The collections around the innermost value. -/
def depth : Datum → Nat
  | null | bool _ | text _ => 0
  | list ds => depths ds + 1
  | object fs => fieldDepths fs + 1

def depths : List Datum → Nat
  | [] => 0
  | d :: ds => max (depth d) (depths ds)

def fieldDepths : List (String × Datum) → Nat
  | [] => 0
  | (_, d) :: fs => max (depth d) (fieldDepths fs)

end

mutual

/-- All keys in the data, at any depth, have a property. -/
def EveryKey (p : String → Prop) : Datum → Prop
  | null | bool _ | text _ => True
  | list ds => EachKey p ds
  | object fs => FieldKeys p fs

def EachKey (p : String → Prop) : List Datum → Prop
  | [] => True
  | d :: ds => EveryKey p d ∧ EachKey p ds

def FieldKeys (p : String → Prop) : List (String × Datum) → Prop
  | [] => True
  | (k, d) :: fs => (p k ∧ EveryKey p d) ∧ FieldKeys p fs

end

end Datum

namespace Yaml

open Style Datum

def Place.isMark : Place → Bool
  | .key _ => false
  | .indicator => true

mutual

/-- The tokens of a value. A list begins and ends in a column of its own only behind an indicator. -/
def tokens (marked : Bool) : Datum → List Token
  | .null => [.scalar (some "null".toList) true]
  | .bool b => [.scalar (some (writeBool b)) true]
  | .text s => [Lexer.textToken s.toList]
  | .list [] => [.flowSequenceStart, .flowSequenceEnd]
  | .list (d :: ds) =>
    let items := .blockEntry :: tokens true d ++ itemTokens ds
    if marked then .blockSequenceStart :: items ++ [.blockEnd] else items
  | .object [] => [.flowMappingStart, .flowMappingEnd]
  | .object ((k, d) :: fs) =>
    .blockMappingStart :: .key :: Lexer.textToken k.toList :: .value ::
      tokens (!isSimpleKey k.toList) d ++ fieldTokens fs ++ [.blockEnd]

def itemTokens : List Datum → List Token
  | [] => []
  | d :: ds => .blockEntry :: tokens true d ++ itemTokens ds

def fieldTokens : List (String × Datum) → List Token
  | [] => []
  | (k, d) :: fs =>
    .key :: Lexer.textToken k.toList :: .value :: tokens (!isSimpleKey k.toList) d ++ fieldTokens fs

end

/-- The colon of a key on the line of its value lies within reach. -/
def KeyFits (k : String) : Prop :=
  isSimpleKey k.toList = true → (writeKey k.toList).length ≤ Lexer.keyReach

theorem blankAhead_writeValue (indent : Nat) (place : Place) (d : Datum) (tail : List Char) :
    blankAhead (writeValue indent place d ++ tail) = true := by
  have lead : ∀ rest, blankAhead (place.lead (place.listIndent indent) ++ rest) = true ∧
      blankAhead (place.lead (indent + 2) ++ rest) = true := by
    intro rest
    cases place <;> exact ⟨rfl, rfl⟩
  cases d with
  | null => rfl
  | bool b => rfl
  | text s => rfl
  | list ds =>
    cases ds with
    | nil => rfl
    | cons d ds =>
      rw [writeValue, List.append_assoc, List.append_assoc]
      exact (lead _).1
  | object fs =>
    cases fs with
    | nil => rfl
    | cons f fs =>
      rw [writeValue]
      simp only [List.append_assoc]
      exact (lead _).2

namespace Lexer

/-! Getting somewhere. -/

/-- The lexer gets to a good state if the keys on the way fit, and fails otherwise. -/
def Gets (fits : Prop) (l : Lexer) (good : Lexer → Prop) : Prop :=
  (fits ∧ ∃ m, Reaches l m ∧ good m) ∨ (¬fits ∧ Fails l)

/-- Between two tokens on a new line, in front of the rest of the text. -/
def At (indents : List Nat) (ts : List Token) (k : Nat) (rest : List Char) (l : Lexer) : Prop :=
  ∃ c, l = between true none indents ts c ∧ c.rest = rest ∧ c.column = k

section Gets

variable {p q : Prop} {l m : Lexer} {good better : Lexer → Prop}

theorem Gets.of_reaches (reaches : Reaches l m) (gets : Gets p m good) : Gets p l good := by
  rcases gets with ⟨fits, n, more, done⟩ | ⟨wide, fails⟩
  · exact Or.inl ⟨fits, n, reaches.trans more, done⟩
  · exact Or.inr ⟨wide, .of_reaches reaches fails⟩

theorem Gets.bind (gets : Gets p l good) (next : ∀ m, good m → Gets q m better) :
    Gets (p ∧ q) l better := by
  rcases gets with ⟨fits, m, reaches, done⟩ | ⟨wide, fails⟩
  · rcases next m done with ⟨fits', n, more, done'⟩ | ⟨wide, fails⟩
    · exact Or.inl ⟨⟨fits, fits'⟩, n, reaches.trans more, done'⟩
    · exact Or.inr ⟨fun both => wide both.2, .of_reaches reaches fails⟩
  · exact Or.inr ⟨fun both => wide both.1, fails⟩

theorem Gets.mono (gets : Gets p l good) (next : ∀ m, good m → ∃ n, Reaches m n ∧ better n) :
    Gets p l better := by
  rcases gets with ⟨fits, m, reaches, done⟩ | failed
  · obtain ⟨n, more, done'⟩ := next m done
    exact Or.inl ⟨fits, n, reaches.trans more, done'⟩
  · exact Or.inr failed

theorem Gets.given (holds : p) (gets : Gets q l good) : Gets (p ∧ q) l good := by
  rcases gets with ⟨fits, done⟩ | ⟨wide, fails⟩
  · exact Or.inl ⟨⟨holds, fits⟩, done⟩
  · exact Or.inr ⟨fun both => wide both.2, fails⟩

theorem Gets.of_leads {indents : List Nat} {ts : List Token} {k : Nat} {rest : List Char} (holds : p)
    (leads : Leads l indents ts k rest) : Gets p l (At indents ts k rest) := by
  obtain ⟨c, left, column, reaches⟩ := leads
  exact Or.inl ⟨holds, _, reaches, c, rfl, left, column⟩

theorem gets_of_reaches (reaches : ∃ m, Reaches l m ∧ good m) : Gets True l good :=
  Or.inl ⟨trivial, reaches⟩

end Gets

/-- The lexer gets through a value that stands at a place, in front of a line further to the left. -/
def Lexed (d : Datum) : Prop :=
  ∀ (indent : Nat) (place : Place) (indents : List Nat) (cut : List Token) (c : Cursor) (k : Nat)
    (rest : List Char), indent + 2 * d.depth + 2 < Scalar.bestWidth →
    indent < c.column → (place = .indicator → c.column = indent + 1) → k ≤ indent → Starts rest →
    c.rest = writeValue indent place d ++ '\n' :: (spaces k ++ rest) →
    Gets (d.EveryKey KeyFits) (between place.isMark none (indent :: indents) cut c)
      (At (indent :: indents) ((tokens place.isMark d).reverse ++ cut) k rest)

/-! Fields and items. -/

theorem lexed_field {d : Datum} (value : Lexed d) (key : String) {p : Nat} {indents is : List Nat}
    {cut ts : List Token} {c : Cursor} {k : Nat} {rest : List Char}
    (room : p + 2 * d.depth + 2 < Scalar.bestWidth)
    (opens : Opens .blockMappingStart p indents cut is ts) (place : c.column = p) (low : k ≤ p)
    (starts : Starts rest)
    (text : c.rest = (openField p key).1 ++ (writeValue p (openField p key).2 d ++
      '\n' :: (spaces k ++ rest))) :
    Gets (KeyFits key ∧ d.EveryKey KeyFits) (between true none indents cut c)
      (At (p :: is) ((.key :: textToken key.toList :: .value ::
        tokens (!isSimpleKey key.toList) d).reverse ++ ts) k rest) := by
  subst place
  unfold openField at text
  cases simple : isSimpleKey key.toList with
  | true =>
    simp only [simple, if_true, List.append_assoc, List.singleton_append] at text
    have blank := blankAhead_writeValue c.column (.key (c.column + (writeKey key.toList).length + 1)) d
      ('\n' :: (spaces k ++ rest))
    by_cases near : (writeKey key.toList).length ≤ keyReach
    · have line := Cursor.skip_inline text (inline_writeKey simple)
      have colon := Cursor.step_inline (Cursor.rest_skip_append text) (by decide)
      have right : c.column < (c.skip (writeKey key.toList).length).step.column := by
        rw [colon, line]
        exact Nat.lt_succ_of_le (Nat.le_add_right _ _)
      have gets := value c.column (.key (c.column + (writeKey key.toList).length + 1)) is
        (.value :: textToken key.toList :: .key :: ts) _ k rest room right
        (fun h => Place.noConfusion h) low starts (by rw [colon])
      refine .of_reaches (reaches_key simple text blank near opens) (.given (fun _ => near) ?_)
      simpa [Place.isMark] using gets
    · refine Or.inr ⟨fun fits => near (fits.1 simple), ?_⟩
      exact fails_key simple text blank (Nat.lt_of_not_le near) opens.inner
  | false =>
    simp only [simple, Bool.false_eq_true, if_false, List.append_assoc, List.cons_append,
      List.nil_append] at text
    have narrow : c.column + 2 < Scalar.bestWidth := by omega
    have blank := blankAhead_writeValue c.column .indicator d ('\n' :: (spaces k ++ rest))
    obtain ⟨cur, left, column, marked⟩ := reaches_marked narrow rfl opens text blank
    have gets := value c.column .indicator is (.value :: textToken key.toList :: .key :: ts) cur k rest
      room (by omega) (fun _ => column) low starts left
    refine .of_reaches marked (.given (fun h => absurd (simple.symm.trans h) Bool.false_ne_true) ?_)
    simpa [Place.isMark] using gets

theorem starts_openField (p : Nat) (key : String) (tail : List Char) :
    Starts ((openField p key).1 ++ tail) := by
  unfold openField
  split
  · rw [List.append_assoc]
    exact starts_write (by simp)
  · exact starts_cons (by decide) (by decide) (by decide) (by decide) (by decide) _

theorem lexed_fields {fs : List (String × Datum)} (each : ∀ f ∈ fs, Lexed f.2) :
    ∀ {d : Datum}, Lexed d → ∀ {key : String} {p : Nat} {indents is : List Nat} {cut ts : List Token}
      {c : Cursor} {k : Nat} {rest : List Char},
    p + 2 * fieldDepths ((key, d) :: fs) + 2 < Scalar.bestWidth →
    Opens .blockMappingStart p indents cut is ts → c.column = p → k ≤ p → Starts rest →
    c.rest = (openField p key).1 ++ (writeValue p (openField p key).2 d ++
      (writeFields p fs ++ '\n' :: (spaces k ++ rest))) →
    Gets (FieldKeys KeyFits ((key, d) :: fs)) (between true none indents cut c)
      (At (p :: is) ((fieldTokens ((key, d) :: fs)).reverse ++ ts) k rest) := by
  induction fs with
  | nil =>
    intro d value key p indents is cut ts c k rest room opens place low starts text
    rw [fieldDepths] at room
    rw [fieldTokens, fieldTokens, List.append_nil]
    have gets := lexed_field value key (by omega) opens place low starts text
    exact gets.bind fun m done => gets_of_reaches ⟨m, .refl m, done⟩
  | cons f fs ih =>
    obtain ⟨j, e⟩ := f
    intro d value key p indents is cut ts c k rest room opens place low starts text
    rw [fieldDepths] at room
    have next : writeFields p ((j, e) :: fs) ++ '\n' :: (spaces k ++ rest) =
        '\n' :: (spaces p ++ ((openField p j).1 ++ (writeValue p (openField p j).2 e ++
          (writeFields p fs ++ '\n' :: (spaces k ++ rest))))) := by
      rw [writeFields]
      simp only [List.append_assoc, List.cons_append]
    rw [next] at text
    refine (lexed_field value key (by omega) opens place (Nat.le_refl p) (starts_openField p j _)
      text).bind ?_
    rintro m ⟨cur, rfl, left, column⟩
    have last : Lexed e := each (j, e) List.mem_cons_self
    rw [fieldTokens, List.reverse_append, List.append_assoc]
    exact ih (fun g member => each g (List.mem_cons_of_mem _ member)) last (by omega) .again column
      low starts left

/-- One item, in front of a line that starts further to the left or at the next dash. -/
theorem lexed_item {d : Datum} (value : Lexed d) {p : Nat} {indents is : List Nat}
    {cut ts : List Token} {c : Cursor} {k : Nat} {rest : List Char}
    (room : p + 2 * d.depth + 2 < Scalar.bestWidth)
    (opens : Opens .blockSequenceStart p indents cut is ts) (place : c.column = p) (low : k ≤ p)
    (starts : Starts rest)
    (text : c.rest = '-' :: (writeValue p .indicator d ++ '\n' :: (spaces k ++ rest))) :
    Gets (d.EveryKey KeyFits) (between true none indents cut c)
      (At (p :: is) ((.blockEntry :: tokens true d).reverse ++ ts) k rest) := by
  subst place
  have line := Cursor.step_inline text (by decide)
  have gets := value c.column .indicator is (.blockEntry :: ts) c.step k rest room
    (by rw [line]; exact Nat.lt_succ_self _) (fun _ => by rw [line]) low starts (by rw [line])
  refine .of_reaches (reaches_entry opens text (blankAhead_writeValue _ _ d _)) ?_
  simpa [Place.isMark] using gets

theorem lexed_items {ds : List Datum} (each : ∀ d ∈ ds, Lexed d) :
    ∀ {d : Datum}, Lexed d → ∀ {p : Nat} {indents is : List Nat} {cut ts : List Token}
      {c : Cursor} {k : Nat} {rest : List Char},
    p + 2 * depths (d :: ds) + 2 < Scalar.bestWidth →
    Opens .blockSequenceStart p indents cut is ts → c.column = p → k ≤ p → Starts rest →
    c.rest = '-' :: (writeValue p .indicator d ++
      (writeItems p ds ++ '\n' :: (spaces k ++ rest))) →
    Gets (EachKey KeyFits (d :: ds)) (between true none indents cut c)
      (At (p :: is) ((itemTokens (d :: ds)).reverse ++ ts) k rest) := by
  induction ds with
  | nil =>
    intro d value p indents is cut ts c k rest room opens place low starts text
    rw [depths] at room
    rw [itemTokens, itemTokens, List.append_nil]
    have gets := lexed_item value (by omega) opens place low starts text
    exact gets.bind fun m done => gets_of_reaches ⟨m, .refl m, done⟩
  | cons e ds ih =>
    intro d value p indents is cut ts c k rest room opens place low starts text
    rw [depths] at room
    have next : writeItems p (e :: ds) ++ '\n' :: (spaces k ++ rest) =
        '\n' :: (spaces p ++ '-' :: (writeValue p .indicator e ++
          (writeItems p ds ++ '\n' :: (spaces k ++ rest)))) := by
      rw [writeItems]
      simp only [List.append_assoc, List.cons_append]
    rw [next] at text
    refine (lexed_item value (by omega) opens place (Nat.le_refl p)
      (starts_dash (blankAhead_writeValue _ _ e _)) text).bind ?_
    rintro m ⟨cur, rfl, left, column⟩
    rw [itemTokens, List.reverse_append, List.append_assoc]
    exact ih (fun g member => each g (List.mem_cons_of_mem _ member)) (each e List.mem_cons_self)
      (by omega) .again column low starts left

/-! Whole values. -/

/-- A value behind the space that follows a colon or an indicator. -/
theorem gets_behind_blank {d : Datum} (keyless : d.EveryKey KeyFits) {allowed : Bool}
    {indents : List Nat} {cut ts : List Token} {c : Cursor} {k : Nat} {rest written : List Char}
    (text : c.rest = ' ' :: written) (ready : Ready written)
    (leads : Leads (between allowed none indents cut c.step) indents ts k rest) :
    Gets (d.EveryKey KeyFits) (between allowed none indents cut c) (At indents ts k rest) :=
  .of_leads keyless (.of_reaches (reaches_blank text ready) leads)

theorem lexed_word {w : List Char} (plain : allowsPlain w = true) {d : Datum}
    (written : ∀ indent place, writeValue indent place d = ' ' :: w)
    (token : ∀ marked, tokens marked d = [.scalar (some w) true]) (keyless : d.EveryKey KeyFits) :
    Lexed d := by
  intro indent place indents cut c k rest _ inside _ low starts text
  have straight : Scalar.plain ⟨0, false⟩ 0 false w = w := Scalar.plain_unfolded rfl 0 false w
  rw [written, ← straight] at text
  have line := Cursor.step_inline text (by decide)
  have behind : c.step.rest = Scalar.plain ⟨0, false⟩ 0 false w ++ '\n' :: (spaces k ++ rest) :=
    Cursor.rest_step_cons text
  rw [token]
  exact gets_behind_blank keyless text (starts_plain plain (by simp)).ready
    (reaches_plain (m := ⟨0, false⟩) plain (fun folds => absurd folds Bool.false_ne_true)
      (by rw [line]; exact Nat.lt_succ_of_lt inside) low behind starts)

theorem lexed_brackets {a b : Char} {s t : Token} (pair : Brackets a b s t) {d : Datum}
    (written : ∀ indent place, writeValue indent place d = [' ', a, b])
    (token : ∀ marked, tokens marked d = [s, t]) (keyless : d.EveryKey KeyFits) : Lexed d := by
  intro indent place indents cut c k rest _ inside _ low starts text
  rw [written] at text
  have line := Cursor.step_inline text (by decide)
  rw [token]
  exact gets_behind_blank keyless text
    (ready_cons pair.shown.head pair.first.1 pair.first.2 _)
    (reaches_brackets pair (by rw [line]; exact Nat.lt_succ_of_lt inside)
      (Cursor.rest_step_cons text) starts.ready)

theorem lexed_text (s : String) : Lexed (.text s) := by
  intro indent place indents cut c k rest room inside _ low starts text
  rw [writeValue] at text
  have line := Cursor.step_inline text (by decide)
  have narrow : indent + 2 < Scalar.bestWidth := by omega
  have keyless : (Datum.text s).EveryKey KeyFits := trivial
  rw [tokens]
  exact gets_behind_blank keyless text (starts_write (by simp)).ready
    (reaches_text narrow (by rw [line]; exact Nat.lt_succ_of_lt inside) low
      (Cursor.rest_step_cons text) starts)

/-- Behind the way to a collection, at its column. -/
theorem reaches_lead {indent inner : Nat} {place : Place} {indents : List Nat} {cut : List Token}
    {c : Cursor} {rest : List Char}
    (room : place = .indicator → c.column = indent + 1 ∧ inner = indent + 2)
    (text : c.rest = place.lead inner ++ rest) (ready : Ready rest) :
    Leads (between place.isMark none indents cut c) indents cut inner rest := by
  cases place with
  | key col =>
    have line := Cursor.skip_newline text
    exact ⟨_, by rw [line], by rw [line], reaches_newline text ready⟩
  | indicator =>
    have line := Cursor.step_inline text (by decide)
    refine ⟨_, by rw [line]; rfl, ?_, reaches_blank text ready⟩
    rw [line, (room rfl).1, (room rfl).2]

/-- A collection that stands in a column of its own is closed by the line behind it. -/
theorem At.close {indent : Nat} {indents : List Nat} {ts : List Token} {k : Nat} {rest : List Char}
    (low : k ≤ indent) (starts : Starts rest) {m : Lexer}
    (done : At ((indent + 2) :: indents) ts k rest m) :
    ∃ n, Reaches m n ∧ At indents (.blockEnd :: ts) k rest n := by
  obtain ⟨cur, rfl, left, column⟩ := done
  have ready : Ready cur.rest := left ▸ starts.ready
  exact ⟨_, reaches_close ready (by omega), cur, rfl, left, column⟩

theorem opens_inner (start : Token) (indent : Nat) (indents : List Nat) (cut : List Token) :
    Opens start (indent + 2) (indent :: indents) cut (indent :: indents) (start :: cut) :=
  .first (by simp)

theorem lexed_list {d : Datum} {ds : List Datum} (each : ∀ e ∈ d :: ds, Lexed e) :
    Lexed (.list (d :: ds)) := by
  intro indent place indents cut c k rest room inside mark low starts text
  rw [depth] at room
  simp only [writeValue, List.append_assoc, List.cons_append] at text
  have ready : Ready ('-' :: (writeValue (place.listIndent indent) .indicator d ++
      (writeItems (place.listIndent indent) ds ++ '\n' :: (spaces k ++ rest)))) :=
    ready_cons (by decide) (by decide) (by decide) _
  have later : ∀ e ∈ ds, Lexed e := fun e member => each e (List.mem_cons_of_mem d member)
  have place' : place = .indicator → c.column = indent + 1 ∧ place.listIndent indent = indent + 2 := by
    rintro rfl
    exact ⟨mark rfl, rfl⟩
  obtain ⟨cur, left, column, leads⟩ := reaches_lead place' text ready
  refine .of_reaches leads ?_
  cases place with
  | key col =>
    exact lexed_items later (each d List.mem_cons_self) (by omega) .again column low starts left
  | indicator =>
    have gets := lexed_items later (each d List.mem_cons_self) (by omega)
      (opens_inner _ indent indents cut) column (Nat.le_add_right_of_le low) starts left
    refine gets.mono fun m done => ?_
    simpa [tokens, itemTokens, Place.isMark] using At.close low starts done

theorem lexed_object {f : String × Datum} {fs : List (String × Datum)}
    (each : ∀ g ∈ f :: fs, Lexed g.2) : Lexed (.object (f :: fs)) := by
  obtain ⟨key, d⟩ := f
  intro indent place indents cut c k rest room inside mark low starts text
  rw [depth] at room
  simp only [writeValue, List.append_assoc] at text
  have first : Lexed d := each (key, d) List.mem_cons_self
  have place' : place = .indicator → c.column = indent + 1 ∧ indent + 2 = indent + 2 :=
    fun h => ⟨mark h, rfl⟩
  obtain ⟨cur, left, column, leads⟩ := reaches_lead place' text (starts_openField _ _ _).ready
  have gets := lexed_fields (fun g member => each g (List.mem_cons_of_mem _ member)) first
    (by omega) (opens_inner _ indent indents cut) column (Nat.le_add_right_of_le low) starts left
  refine .of_reaches leads (gets.mono fun m done => ?_)
  simpa [tokens, fieldTokens] using At.close low starts done

theorem lexed (d : Datum) : Lexed d := by
  induction d using Datum.induct with
  | null => exact lexed_word (by decide) (fun _ _ => rfl) (fun _ => rfl) trivial
  | bool b =>
    have plain : allowsPlain (writeBool b) = true := by cases b <;> decide
    exact lexed_word plain (fun _ _ => rfl) (fun _ => rfl) trivial
  | text s => exact lexed_text s
  | list ds each =>
    cases ds with
    | nil => exact lexed_brackets brackets_square (fun _ _ => rfl) (fun _ => rfl) trivial
    | cons d ds => exact lexed_list each
  | object fs each =>
    cases fs with
    | nil => exact lexed_brackets brackets_curly (fun _ _ => rfl) (fun _ => rfl) trivial
    | cons f fs => exact lexed_object each

/-! Documents. -/

/-- At the end of the text the outermost mapping is closed. -/
theorem next_end {ts : List Token} {c : Cursor} (text : c.rest = []) :
    (between true none [0] ts c).next =
      .ok (between true none [] (.streamEnd :: .blockEnd :: ts) c) := by
  have ready : Ready c.rest := text ▸ ready_nil
  have here : (between true none [0] ts c).cursor.rest = [] := text
  rw [next_ready (l := between true none [0] ts c) ready, resume_none,
    unwind_inner (by simp), meet, here]
  change (((between true none [0] ts c).unwind (-1)).dropKey.map _) = _
  rw [unwind_cons (by decide)]
  rfl

end Lexer

open Lexer in
theorem ofText_writeDocument {f : String × Datum} {fs : List (String × Datum)}
    (room : 2 * fieldDepths (f :: fs) + 2 < Scalar.bestWidth) :
    (FieldKeys KeyFits (f :: fs) ∧ Token.ofText (writeDocument (f :: fs)) =
      .blockMappingStart :: fieldTokens (f :: fs) ++ [.blockEnd, .streamEnd]) ∨
    (¬FieldKeys KeyFits (f :: fs) ∧ .streamEnd ∉ Token.ofText (writeDocument (f :: fs))) := by
  obtain ⟨key, d⟩ := f
  have text : writeDocument ((key, d) :: fs) = (openField 0 key).1 ++
      (writeValue 0 (openField 0 key).2 d ++ (writeFields 0 fs ++ '\n' :: (spaces 0 ++ []))) := by
    rw [writeDocument]
    simp [spaces]
  have opens : Opens .blockMappingStart 0 [] [] [] [.blockMappingStart] := .first (by simp)
  have gets := lexed_fields (fun g _ => lexed g.2) (lexed d) (by omega) opens
    (c := { rest := writeDocument ((key, d) :: fs) }) rfl (Nat.le_refl 0) starts_nil text
  unfold Token.ofText
  rcases gets with ⟨fits, m, reaches, cur, rfl, left, _⟩ | ⟨wide, fails⟩
  · have run := reaches.run_eq (next_end left) rfl (by simp [between])
      (Nat.lt_add_of_pos_right (Nat.succ_pos 1))
    exact Or.inl ⟨fits, run.trans (by simp [between])⟩
  · exact Or.inr ⟨wide, fails.run_unended (by simp [between]) _⟩

end Yaml

end NamespacePlan
