import Mathlib.Data.List.TakeWhile
import NamespacePlan.Xml.Lexeme

/-! What the readers of a document look at. Each takes its part off the beginning of a text, and it takes
the same part off every text that begins alike up to a sign that closes a tag: behind its part no reader
looks beyond such a sign. -/
namespace NamespacePlan.Xml

/-- Two texts begin alike, up to a sign that closes a tag or further. -/
def Alike (u v : List Char) : Prop := ∃ r s t, '>' ∈ r ∧ u = r ++ s ∧ v = r ++ t

namespace Alike

variable {u v : List Char}

theorem symm (alike : Alike u v) : Alike v u := by
  obtain ⟨r, s, t, closed, rfl, rfl⟩ := alike
  exact ⟨r, t, s, closed, rfl, rfl⟩

theorem append (alike : Alike u v) (front : List Char) : Alike (front ++ u) (front ++ v) := by
  obtain ⟨r, s, t, closed, rfl, rfl⟩ := alike
  exact ⟨front ++ r, s, t, List.mem_append_right _ closed, by simp, by simp⟩

theorem of_closed (s t : List Char) {r : List Char} (closed : '>' ∈ r) : Alike (r ++ s) (r ++ t) :=
  ⟨r, s, t, closed, rfl, rfl⟩

theorem exists_head (alike : Alike u v) : ∃ c s t, u = c :: s ∧ v = c :: t ∧ (c ≠ '>' → Alike s t) := by
  obtain ⟨_ | ⟨c, r⟩, s, t, closed, rfl, rfl⟩ := alike
  · cases closed
  · refine ⟨c, r ++ s, r ++ t, rfl, rfl, fun other => of_closed s t ?_⟩
    exact (List.mem_cons.1 closed).resolve_left (Ne.symm other)

theorem dropWhile (alike : Alike u v) {p : Char → Bool} (stops : p '>' = false) :
    u.takeWhile p = v.takeWhile p ∧ Alike (u.dropWhile p) (v.dropWhile p) := by
  obtain ⟨r, s, t, closed, rfl, rfl⟩ := alike
  induction r with
  | nil => cases closed
  | cons c r ih =>
    by_cases goes : p c = true
    · have other : c ≠ '>' := by
        rintro rfl
        rw [stops] at goes
        cases goes
      obtain ⟨taken, left⟩ := ih ((List.mem_cons.1 closed).resolve_left (Ne.symm other))
      simp only [List.cons_append, List.takeWhile_cons, List.dropWhile_cons, goes, if_true]
      exact ⟨congrArg _ taken, left⟩
    · simp only [List.cons_append, List.takeWhile_cons, List.dropWhile_cons, goes]
      exact ⟨rfl, of_closed s t closed⟩

end Alike

/-- Reading takes its part off the beginning, and the same part where the text behind it is another one
that begins alike. -/
def Local (R : List Char → List Char → Prop) : Prop :=
  ∀ ⦃cs rest⦄, R cs rest → ∃ front, cs = front ++ rest ∧
    ∀ rest', Alike rest rest' → R (front ++ rest') rest'

/-- Texts that begin alike meet a condition together. -/
def Decided (p : List Char → Prop) : Prop := ∀ ⦃u v⦄, Alike u v → p u → p v

theorem Decided.bool {p : List Char → Bool} (decided : Decided fun cs => p cs = true) (b : Bool) :
    Decided fun cs => p cs = b := by
  intro u v alike here
  cases b with
  | true => exact decided alike here
  | false =>
    refine Bool.eq_false_iff.2 fun there => ?_
    rw [decided alike.symm there] at here
    cases here

namespace Local

variable {R S : List Char → List Char → Prop}

theorem stay : Local fun cs rest => rest = cs := by
  rintro cs rest rfl
  exact ⟨[], rfl, fun _ _ => rfl⟩

theorem comp (first : Local R) (second : Local S) : Local fun cs rest => ∃ m, R cs m ∧ S m rest := by
  rintro cs rest ⟨m, left, right⟩
  obtain ⟨f, rfl, keeps⟩ := first left
  obtain ⟨g, rfl, keeps'⟩ := second right
  refine ⟨f ++ g, by simp, fun rest' alike => ⟨g ++ rest', ?_, keeps' rest' alike⟩⟩
  rw [List.append_assoc]
  exact keeps _ (alike.append g)

theorem ofExists {ι : Sort*} {R : ι → List Char → List Char → Prop} (each : ∀ i, Local (R i)) :
    Local fun cs rest => ∃ i, R i cs rest := by
  rintro cs rest ⟨i, read⟩
  obtain ⟨f, rfl, keeps⟩ := each i read
  exact ⟨f, rfl, fun rest' alike => ⟨i, keeps rest' alike⟩⟩

theorem or (first : Local R) (second : Local S) : Local fun cs rest => R cs rest ∨ S cs rest := by
  rintro cs rest (left | right)
  · obtain ⟨f, rfl, keeps⟩ := first left
    exact ⟨f, rfl, fun rest' alike => .inl (keeps rest' alike)⟩
  · obtain ⟨f, rfl, keeps⟩ := second right
    exact ⟨f, rfl, fun rest' alike => .inr (keeps rest' alike)⟩

theorem when {p : List Char → Prop} (decided : Decided p) (read : Local R) :
    Local fun cs rest => p cs ∧ R cs rest := by
  rintro cs rest ⟨holds, here⟩
  obtain ⟨f, rfl, keeps⟩ := read here
  exact ⟨f, rfl, fun rest' alike => ⟨decided (alike.append f) holds, keeps rest' alike⟩⟩

theorem also (read : Local R) (p : Prop) : Local fun cs rest => R cs rest ∧ p := by
  rintro cs rest ⟨here, holds⟩
  obtain ⟨f, rfl, keeps⟩ := read here
  exact ⟨f, rfl, fun rest' alike => ⟨keeps rest' alike, holds⟩⟩

theorem given (p : Prop) (read : Local R) : Local fun cs rest => p ∧ R cs rest :=
  when (fun _ _ _ holds => holds) read

theorem behindMeets {p : List Char → Prop} (read : Local R) (decided : Decided p) :
    Local fun cs rest => R cs rest ∧ p rest := by
  rintro cs rest ⟨here, holds⟩
  obtain ⟨f, rfl, keeps⟩ := read here
  exact ⟨f, rfl, fun rest' alike => ⟨keeps rest' alike, decided alike holds⟩⟩

theorem congr (same : ∀ cs rest, S cs rest ↔ R cs rest) (read : Local R) : Local S := by
  have equal : S = R := funext fun cs => funext fun rest => propext (same cs rest)
  rw [equal]
  exact read

theorem length_le (read : Local R) {cs rest : List Char} (here : R cs rest) :
    rest.length ≤ cs.length := by
  obtain ⟨f, rfl, _⟩ := read here
  simp

end Local

/-! Readers that take one part after the other. -/

/-- A run takes steps until it ends: what has been read so far is its state. Its fuel is the number of
steps it may take, and one more to end. -/
structure Repeats {σ : Type} (Run : Nat → σ → List Char → List Char → Prop)
    (Ends : σ → List Char → List Char → Prop) (Step : σ → σ → List Char → List Char → Prop) : Prop where
  zero : ∀ s cs rest, ¬Run 0 s cs rest
  succ : ∀ n s cs rest, Run (n + 1) s cs rest ↔
    Ends s cs rest ∨ ∃ t, ∃ m, Step s t cs m ∧ Run n t m rest

namespace Repeats

variable {σ : Type} {Run : Nat → σ → List Char → List Char → Prop}
  {Ends : σ → List Char → List Char → Prop} {Step : σ → σ → List Char → List Char → Prop}

theorem isLocal (repeats : Repeats Run Ends Step) (ends : ∀ s, Local (Ends s))
    (step : ∀ s t, Local (Step s t)) (n : Nat) (s : σ) : Local (Run n s) := by
  induction n generalizing s with
  | zero => exact fun cs rest read => (repeats.zero s cs rest read).elim
  | succ n ih =>
    exact ((ends s).or (.ofExists fun t => (step s t).comp (ih t))).congr fun _ _ => repeats.succ n s _ _

/-- If every step takes a sign, the length of the text is fuel enough. Where a run may end without one, it
needs `extra` fuel. -/
theorem enough (repeats : Repeats Run Ends Step)
    (shorter : ∀ {s t cs m}, Step s t cs m → m.length < cs.length) (extra : Nat)
    (room : ∀ {s rest}, Ends s [] rest → 0 < extra) {n more : Nat} {s : σ} {cs rest : List Char}
    (read : Run n s cs rest) (fits : cs.length + extra ≤ more) : Run more s cs rest := by
  induction n generalizing s cs more with
  | zero => exact (repeats.zero s cs rest read).elim
  | succ n ih =>
    have parts := (repeats.succ n s cs rest).1 read
    cases more with
    | zero =>
      obtain rfl : cs = [] := List.length_eq_zero_iff.1 (by omega)
      rcases parts with here | ⟨t, m, step, _⟩
      · have positive := room here
        omega
      · exact absurd (shorter step) (Nat.not_lt_zero _)
    | succ more =>
      refine (repeats.succ more s cs rest).2 (parts.imp_right ?_)
      rintro ⟨t, m, step, later⟩
      have less := shorter step
      exact ⟨t, m, step, ih later (by omega)⟩

end Repeats

theorem decided_head (p : Option Char → Prop) : Decided fun cs => p cs.head? := by
  intro u v alike holds
  obtain ⟨c, s, t, rfl, rfl, _⟩ := alike.exists_head
  exact holds

/-! Words. -/

theorem behind?_eq_some_iff {w cs rest : List Char} : behind? w cs = some rest ↔ cs = w ++ rest := by
  unfold behind?
  split
  · next isPrefix =>
    obtain ⟨tail, rfl⟩ := List.isPrefixOf_iff_prefix.1 isPrefix
    simp [eq_comm]
  · next other =>
    refine ⟨fun h => (nomatch h), ?_⟩
    rintro rfl
    exact absurd (List.isPrefixOf_iff_prefix.2 (List.prefix_append w rest)) other

theorem behind?_other {c d : Char} (other : c ≠ d) (w m : List Char) :
    behind? (d :: w) (c :: m) = none := by
  cases found : behind? (d :: w) (c :: m) with
  | none => rfl
  | some rest => exact absurd (List.cons.inj (behind?_eq_some_iff.1 found)).1 other

theorem behind?_apart (u : List Char) {c d : Char} {v w cs m : List Char}
    (found : behind? (u ++ c :: v) cs = some m) (other : c ≠ d) : behind? (u ++ d :: w) cs = none := by
  rw [behind?_eq_some_iff.1 found]
  clear found
  induction u with
  | nil => exact behind?_other other w (v ++ m)
  | cons a u ih => simpa [behind?] using ih

theorem behind?_eq_none_iff {w cs : List Char} : behind? w cs = none ↔ ¬w.isPrefixOf cs = true := by
  unfold behind?
  split <;> simp_all

theorem local_word (w : List Char) : Local fun cs rest => cs = w ++ rest := by
  rintro cs rest rfl
  exact ⟨w, rfl, fun _ _ => rfl⟩

theorem local_behind (w : List Char) : Local fun cs rest => behind? w cs = some rest :=
  (local_word w).congr fun _ _ => behind?_eq_some_iff

theorem local_sign (c : Char) : Local fun cs rest => cs = c :: rest := local_word [c]

theorem Alike.behind {w u v m : List Char} (alike : Alike u v) (inner : '>' ∉ w)
    (found : behind? w u = some m) : ∃ m', behind? w v = some m' ∧ Alike m m' := by
  rw [behind?_eq_some_iff] at found
  subst found
  induction w generalizing v with
  | nil => exact ⟨v, behind?_eq_some_iff.2 rfl, alike⟩
  | cons c w ih =>
    obtain ⟨d, s, t, left, rfl, further⟩ := alike.exists_head
    obtain ⟨rfl, rfl⟩ := List.cons.inj left
    rw [List.mem_cons, not_or] at inner
    obtain ⟨m', found, alike'⟩ := ih inner.2 (further (Ne.symm inner.1))
    have whole := congrArg (c :: ·) (behind?_eq_some_iff.1 found)
    exact ⟨m', behind?_eq_some_iff.2 whole, alike'⟩

theorem decided_missing {w : List Char} (inner : '>' ∉ w) : Decided fun cs => behind? w cs = none := by
  intro u v alike missing
  cases found : behind? w v with
  | none => rfl
  | some m =>
    obtain ⟨m', found', _⟩ := alike.symm.behind inner found
    rw [missing] at found'
    cases found'

/-- A word decides between two ways of reading on. -/
theorem Local.tryWord {R S : List Char → List Char → Prop} {w : List Char} (inner : '>' ∉ w)
    (behind : Local R) (without : Local S) : Local fun cs rest =>
      (∃ m, behind? w cs = some m ∧ R m rest) ∨ (behind? w cs = none ∧ S cs rest) :=
  ((local_behind w).comp behind).or (without.when (decided_missing inner))

theorem Local.length_lt {R : List Char → List Char → Prop} (read : Local R) {w cs m rest : List Char}
    (visible : w ≠ []) (word : behind? w cs = some m) (here : R m rest) : rest.length < cs.length := by
  have left := read.length_le here
  have positive := List.length_pos_iff.2 visible
  rw [behind?_eq_some_iff.1 word, List.length_append]
  omega

/-! Runs of characters. -/

theorem local_run (p : Char → Bool) (run : List Char) :
    Local fun cs rest => cs.takeWhile p = run ∧ cs.dropWhile p = rest := by
  rintro cs rest ⟨rfl, rfl⟩
  refine ⟨cs.takeWhile p, List.takeWhile_append_dropWhile.symm, fun rest' alike => ?_⟩
  obtain ⟨c, s, t, left, rfl, _⟩ := alike.exists_head
  have stops : p c = false := by
    have first := List.head?_dropWhile_not p cs
    rw [left] at first
    simpa using first
  have all : ∀ d ∈ cs.takeWhile p, p d = true := fun d => List.mem_takeWhile_imp
  rw [List.takeWhile_append_of_pos all, List.dropWhile_append_of_pos all,
    List.takeWhile_cons_of_neg (by simp [stops]), List.dropWhile_cons_of_neg (by simp [stops]),
    List.append_nil]
  exact ⟨rfl, rfl⟩

theorem local_skipBlanks : Local fun cs rest => skipBlanks cs = rest := by
  refine (Local.ofExists fun run => local_run isBlank run).congr fun cs rest => ?_
  simp [skipBlanks]

theorem length_skipBlanks_le (cs : List Char) : (skipBlanks cs).length ≤ cs.length :=
  local_skipBlanks.length_le rfl

theorem Alike.skipBlanks {u v : List Char} (alike : Alike u v) :
    Alike (skipBlanks u) (skipBlanks v) := (alike.dropWhile rfl).2

theorem Local.skipBlanks {R : List Char → List Char → Prop} (read : Local R) :
    Local fun cs rest => R (skipBlanks cs) rest :=
  (local_skipBlanks.comp read).congr fun _ _ => by simp

theorem blanks?_eq_some_iff {cs rest : List Char} :
    blanks? cs = some rest ↔ ∃ c tail, cs = c :: tail ∧ isBlank c = true ∧ skipBlanks tail = rest := by
  cases cs with
  | nil => simp [blanks?]
  | cons c tail =>
    simp only [blanks?]
    split
    · next blank =>
      constructor
      · rintro ⟨⟩
        exact ⟨c, tail, rfl, blank, rfl⟩
      · rintro ⟨_, _, ⟨⟩, _, rfl⟩
        rfl
    · next other =>
      refine ⟨fun h => (nomatch h), ?_⟩
      rintro ⟨_, _, ⟨⟩, blank, _⟩
      exact absurd blank other

theorem local_blanks : Local fun cs rest => blanks? cs = some rest := by
  refine (Local.ofExists fun c => (local_sign c).comp ((local_skipBlanks).given (isBlank c = true))).congr
    fun cs rest => ?_
  exact blanks?_eq_some_iff

theorem length_lt_of_blanks {cs rest : List Char} (found : blanks? cs = some rest) :
    rest.length < cs.length := by
  obtain ⟨c, tail, rfl, _, skipped⟩ := blanks?_eq_some_iff.1 found
  rw [← skipped]
  exact Nat.lt_succ_of_le (length_skipBlanks_le tail)

theorem Alike.blanks {u v m : List Char} (alike : Alike u v) (found : blanks? u = some m) :
    ∃ m', blanks? v = some m' ∧ Alike m m' := by
  obtain ⟨c, tail, rfl, blank, rfl⟩ := blanks?_eq_some_iff.1 found
  obtain ⟨d, s, t, left, rfl, further⟩ := alike.exists_head
  obtain ⟨rfl, rfl⟩ := List.cons.inj left
  have other : c ≠ '>' := by
    rintro rfl
    cases blank
  exact ⟨_, blanks?_eq_some_iff.2 ⟨c, t, rfl, blank, rfl⟩, (further other).skipBlanks⟩

theorem decided_noBlanks : Decided fun cs => blanks? cs = none := by
  intro u v alike missing
  cases found : blanks? v with
  | none => rfl
  | some m =>
    obtain ⟨m', found', _⟩ := alike.symm.blanks found
    rw [missing] at found'
    cases found'

/-! Names and texts in quotes. -/

theorem name?_eq_some_iff {cs name rest : List Char} :
    name? cs = some (name, rest) ↔ ((cs.takeWhile isNameChar = name ∧ cs.dropWhile isNameChar = rest) ∧
      cs.head?.any isNameStart = true) ∧ rest.head? ≠ some '\x00' := by
  cases cs with
  | nil => simp [name?]
  | cons c cs =>
    simp only [name?, List.head?_cons, Option.any_some]
    split
    · next fine =>
      simp only [Bool.and_eq_true, bne_iff_ne] at fine
      simp only [Option.some.injEq, Prod.mk.injEq, fine.1, and_true]
      refine ⟨fun h => ⟨h, h.2 ▸ fine.2⟩, fun h => h.1⟩
    · next other =>
      simp only [Bool.and_eq_true, bne_iff_ne] at other
      refine ⟨fun h => (nomatch h), fun h => absurd ⟨h.1.2, ?_⟩ other⟩
      rw [h.1.1.2]
      exact h.2

theorem local_name (name : List Char) : Local fun cs rest => name? cs = some (name, rest) := by
  have begins : Decided fun cs => cs.head?.any isNameStart = true := decided_head fun c => c.any isNameStart
  have ends : Decided fun cs => cs.head? ≠ some '\x00' := decided_head fun c => c ≠ some '\x00'
  refine (((local_run isNameChar name).when begins).behindMeets ends).congr fun cs rest => ?_
  rw [name?_eq_some_iff, and_comm (a := cs.head?.any isNameStart = true)]

theorem nameToken?_eq_some_iff {cs token rest : List Char} :
    nameToken? cs = some (token, rest) ↔
      token ≠ [] ∧ cs.takeWhile isNameChar = token ∧ cs.dropWhile isNameChar = rest := by
  have left : cs.drop (cs.takeWhile isNameChar).length = cs.dropWhile isNameChar := by
    have parts := List.takeWhile_append_dropWhile (p := isNameChar) (l := cs)
    exact (congrArg (List.drop (cs.takeWhile isNameChar).length) parts.symm).trans List.drop_left
  simp only [nameToken?, left]
  split
  · next empty =>
    simp only [List.isEmpty_iff] at empty
    refine ⟨fun h => (nomatch h), fun h => absurd (h.2.1.symm.trans empty) h.1⟩
  · next some' =>
    simp only [List.isEmpty_iff] at some'
    simp only [Option.some.injEq, Prod.mk.injEq]
    exact ⟨fun h => ⟨h.1 ▸ some', h⟩, fun h => h.2⟩

theorem local_nameToken (token : List Char) : Local fun cs rest => nameToken? cs = some (token, rest) :=
  ((local_run isNameChar token).given (token ≠ [])).congr fun _ _ => nameToken?_eq_some_iff

theorem takeWhile_until {q : Char} {inside : List Char} (absent : q ∉ inside) (rest : List Char) :
    (inside ++ q :: rest).takeWhile (· != q) = inside := by
  have all : ∀ c ∈ inside, (c != q) = true := by
    intro c member
    exact bne_iff_ne.2 fun same => absent (same ▸ member)
  rw [List.takeWhile_append_of_pos all, List.takeWhile_cons_of_neg (by simp), List.append_nil]

theorem quoted?_eq_some_iff {cs inside rest : List Char} : quoted? cs = some (inside, rest) ↔
    ∃ q, (q = '"' ∨ q = '\'') ∧ q ∉ inside ∧ cs = (q :: inside ++ [q]) ++ rest := by
  cases cs with
  | nil => simp [quoted?]
  | cons q tail =>
    have shape : (∃ d, (d = '"' ∨ d = '\'') ∧ d ∉ inside ∧ q :: tail = (d :: inside ++ [d]) ++ rest) ↔
        (q = '"' ∨ q = '\'') ∧ q ∉ inside ∧ tail = inside ++ q :: rest := by
      simp
      grind
    rw [shape]
    simp only [quoted?]
    split
    · next quote =>
      simp only [quote, true_and]
      split
      · next closed =>
        have member : q ∈ tail := by
          by_contra absent
          have all : ∀ c ∈ tail, (c != q) = true := by
            intro c listed
            exact bne_iff_ne.2 fun same => absent (same ▸ listed)
          rw [List.takeWhile_eq_self_iff.2 all] at closed
          exact Nat.lt_irrefl _ closed
        obtain ⟨inner, behind, rfl, absent⟩ := List.eq_append_cons_of_mem member
        have drops : (inner ++ q :: behind).drop (inner.length + 1) = behind := by
          simp
        rw [takeWhile_until absent, drops, Option.some.injEq, Prod.mk.injEq]
        constructor
        · rintro ⟨rfl, rfl⟩
          exact ⟨absent, rfl⟩
        · rintro ⟨free, same⟩
          obtain rfl : inner = inside := by
            rw [← takeWhile_until absent behind, same, takeWhile_until free]
          simpa using same
      · next opened =>
        refine ⟨fun h => (nomatch h), ?_⟩
        rintro ⟨absent, rfl⟩
        rw [takeWhile_until absent] at opened
        simp at opened
    · next other =>
      exact ⟨fun h => (nomatch h), fun h => absurd h.1 other⟩

theorem local_quoted (inside : List Char) : Local fun cs rest => quoted? cs = some (inside, rest) := by
  refine (Local.ofExists fun q => ((local_word (q :: inside ++ [q])).given (q ∉ inside)).given
    (q = '"' ∨ q = '\'')).congr fun cs rest => ?_
  exact quoted?_eq_some_iff

theorem entityName?_eq_some_iff {cs rest : List Char} {name : String} :
    entityName? cs = some (name, rest) ↔
      ∃ n m, name? cs = some (n, m) ∧ m = ';' :: rest ∧ String.ofList n = name := by
  unfold entityName?
  split
  · next n tail named =>
    simp only [Option.some.injEq, Prod.mk.injEq]
    constructor
    · rintro ⟨rfl, rfl⟩
      exact ⟨n, _, named, rfl, rfl⟩
    · rintro ⟨n', m, named', rfl, rfl⟩
      cases named.symm.trans named'
      exact ⟨rfl, rfl⟩
  · next other =>
    refine ⟨fun h => (nomatch h), ?_⟩
    rintro ⟨n, m, named, rfl, _⟩
    exact absurd named (other n rest)

theorem local_entityName (name : String) : Local fun cs rest => entityName? cs = some (name, rest) := by
  refine (Local.ofExists fun n => (local_name n).comp ((local_sign ';').also
    (String.ofList n = name))).congr fun cs rest => ?_
  exact entityName?_eq_some_iff

/-! Comments and instructions. -/

/-- A reader that goes on until the end it looks for, and looks one sign ahead for it. -/
theorem local_until {read : List Char → Option (List Char)} (nothing : read [] = none)
    (step : ∀ c cs rest, read (c :: cs) = some rest →
      (∃ word, c :: cs = word ++ rest ∧ word ≠ [] ∧ ∀ rest', read (word ++ rest') = some rest') ∨
      (read cs = some rest ∧ ∀ cs', cs'.head? = cs.head? → read (c :: cs') = read cs')) :
    Local fun cs rest => read cs = some rest := by
  have whole : ∀ cs rest, read cs = some rest → ∃ front, cs = front ++ rest ∧ front ≠ [] ∧
      ∀ rest', read (front ++ rest') = some rest' := by
    intro cs
    induction cs with
    | nil => exact fun rest found => nomatch nothing.symm.trans found
    | cons c cs ih =>
      intro rest found
      rcases step c cs rest found with here | ⟨later, goes⟩
      · exact here
      · obtain ⟨front, rfl, some', keeps⟩ := ih rest later
        obtain ⟨d, front, rfl⟩ := List.exists_cons_of_ne_nil some'
        refine ⟨c :: d :: front, rfl, by simp, fun rest' => ?_⟩
        exact (goes (d :: (front ++ rest')) rfl).trans (keeps rest')
  intro cs rest found
  obtain ⟨front, parts, _, keeps⟩ := whole cs rest found
  exact ⟨front, parts, fun rest' _ => keeps rest'⟩

theorem local_commentEnd : Local fun cs rest => commentEnd? cs = some rest := by
  refine local_until rfl fun c cs rest found => ?_
  unfold commentEnd? at found
  split at found
  · next tail whole =>
    cases whole
    split at found
    · cases found
      exact .inl ⟨['-', '-', '>'], rfl, by simp, fun _ => rfl⟩
    · cases found
  · next d tail other whole =>
    cases whole
    split at found
    · next fine =>
      refine .inr ⟨found, fun cs' same => ?_⟩
      rw [commentEnd?, if_pos fine]
      rintro tail' rfl rfl
      obtain ⟨tail, rfl⟩ := List.head?_eq_some_iff.1 same.symm
      exact other tail rfl rfl
    · cases found
  · cases ‹_›

theorem local_instructionEnd : Local fun cs rest => instructionEnd? cs = some rest := by
  refine local_until rfl fun c cs rest found => ?_
  unfold instructionEnd? at found
  split at found
  · next tail whole =>
    cases whole
    cases found
    exact .inl ⟨['?', '>'], rfl, by simp, fun _ => rfl⟩
  · next d tail other whole =>
    cases whole
    split at found
    · next fine =>
      refine .inr ⟨found, fun cs' same => ?_⟩
      rw [instructionEnd?, if_pos fine]
      rintro tail' rfl rfl
      obtain ⟨tail, rfl⟩ := List.head?_eq_some_iff.1 same.symm
      exact other tail rfl rfl
    · cases found
  · cases ‹_›

theorem behind?_of_blanks {w m k : List Char} (found : blanks? m = some k)
    (visible : w.head?.any isBlank = false) (some' : w ≠ []) : behind? w m = none := by
  obtain ⟨c, tail, rfl, blank, _⟩ := blanks?_eq_some_iff.1 found
  cases there : behind? w (c :: tail) with
  | none => rfl
  | some rest =>
    obtain ⟨d, w, rfl⟩ := List.exists_cons_of_ne_nil some'
    cases behind?_eq_some_iff.1 there
    simp [blank] at visible

theorem instruction?_eq_some_iff {cs rest : List Char} : instruction? cs = some rest ↔
    ∃ name m, name? cs = some (name, m) ∧ isReserved name = false ∧
      (behind? "?>".toList m = some rest ∨ ∃ k, blanks? m = some k ∧ instructionEnd? k = some rest) := by
  simp only [instruction?, Option.bind_eq_bind, Option.bind_eq_some_iff, Prod.exists]
  refine exists_congr fun name => exists_congr fun m => and_congr_right fun _ => ?_
  cases isReserved name with
  | true => simp
  | false =>
    simp only [Bool.false_eq_true, if_false, Option.or_eq_some_iff, Option.bind_eq_some_iff, true_and]
    refine or_congr_right (and_iff_right_of_imp ?_)
    rintro ⟨k, blank, _⟩
    exact behind?_of_blanks blank rfl (by simp)

theorem local_instruction : Local fun cs rest => instruction? cs = some rest := by
  refine (Local.ofExists fun name => (local_name name).comp (((local_behind "?>".toList).or
    (local_blanks.comp local_instructionEnd)).given (isReserved name = false))).congr fun cs rest => ?_
  exact instruction?_eq_some_iff

/-! External texts. -/

theorem quotedBehindBlanks {m rest : List Char} :
    (blanks? m >>= quoted?).map Prod.snd = some rest ↔
      ∃ k, blanks? m = some k ∧ ∃ inside, quoted? k = some (inside, rest) := by
  simp only [Option.bind_eq_bind, Option.map_eq_some_iff, Option.bind_eq_some_iff, Prod.exists]
  constructor
  · rintro ⟨inside, _, ⟨k, blank, quotes⟩, rfl⟩
    exact ⟨k, blank, inside, quotes⟩
  · rintro ⟨k, blank, inside, quotes⟩
    exact ⟨inside, rest, ⟨k, blank, quotes⟩, rfl⟩

theorem externalId?_eq_some_iff {cs rest : List Char} : externalId? true cs = some rest ↔
    (∃ m, behind? "SYSTEM".toList cs = some m ∧ ∃ k, blanks? m = some k ∧
      ∃ place, quoted? k = some (place, rest)) ∨
    ∃ m, behind? "PUBLIC".toList cs = some m ∧ ∃ k, blanks? m = some k ∧
      ∃ identifier l, quoted? k = some (identifier, l) ∧ identifier.all isPublicChar = true ∧
        ∃ j, blanks? l = some j ∧ ∃ place, quoted? j = some (place, rest) := by
  unfold externalId?
  split
  · next m own =>
    have other : behind? "PUBLIC".toList cs = none := behind?_apart [] own (by decide)
    rw [quotedBehindBlanks, own, other]
    simp
  · next m other own =>
    rw [own, other]
    simp only [Option.bind_eq_bind, Option.bind_eq_some_iff, Prod.exists, reduceCtorEq, false_and,
      exists_false, false_or, Option.some.injEq, exists_eq_left', if_true]
    constructor
    · rintro ⟨identifier, l, ⟨k, blank, quotes⟩, read⟩
      split at read
      · next fine => exact ⟨k, blank, identifier, l, quotes, fine, quotedBehindBlanks.1 read⟩
      · cases read
    · rintro ⟨k, blank, identifier, l, quotes, fine, place⟩
      refine ⟨identifier, l, ⟨k, blank, quotes⟩, ?_⟩
      rw [if_pos fine]
      exact quotedBehindBlanks.2 place
  · next other other' =>
    rw [other, other']
    simp

theorem local_externalId : Local fun cs rest => externalId? true cs = some rest := by
  have place : Local fun m rest => ∃ k, blanks? m = some k ∧ ∃ inside, quoted? k = some (inside, rest) :=
    local_blanks.comp (.ofExists local_quoted)
  refine (((local_behind "SYSTEM".toList).comp place).or ((local_behind "PUBLIC".toList).comp
    (local_blanks.comp (.ofExists fun identifier => (local_quoted identifier).comp
      (place.given (identifier.all isPublicChar = true)))))).congr fun cs rest => ?_
  exact externalId?_eq_some_iff

theorem decided_noExternalId : Decided fun cs =>
    behind? "SYSTEM".toList cs = none ∧ behind? "PUBLIC".toList cs = none := by
  rintro u v alike ⟨first, second⟩
  exact ⟨decided_missing (by decide) alike first, decided_missing (by decide) alike second⟩

end NamespacePlan.Xml
