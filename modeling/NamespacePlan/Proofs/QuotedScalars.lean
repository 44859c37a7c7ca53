import NamespacePlan.Proofs.CursorSteps
import NamespacePlan.Proofs.HexDigits
import NamespacePlan.Yaml.Lexer

/-! Texts in quotes read back. Each character is undone by one step of the reader, whatever follows it;
a run of line ends is taken at once. -/
namespace NamespacePlan.Yaml

open Style

namespace ScalarText

/-- Reading between quotes gives the characters up to a place behind the closing quote, with any fuel
that bounds the text. -/
def Reads (double : Bool) (c : Cursor) (out : List (Option Char)) (last : Cursor) : Prop :=
  ∀ fuel, c.rest.length ≤ fuel → quoted double fuel c = .ok (out, last)

/-- In front of `tail` the written characters are read as those, and the reading goes on behind them. -/
def Undoes (double : Bool) (written out tail : List Char) : Prop :=
  ∀ (c last : Cursor) (more : List (Option Char)), c.rest = written ++ tail →
    Reads double (c.skip written.length) more last → Reads double c (out.map some ++ more) last

theorem Undoes.nil {double : Bool} {tail : List Char} : Undoes double [] [] tail :=
  fun _ _ _ _ reads => reads

theorem Undoes.append {double : Bool} {xs ys as bs tail : List Char}
    (first : Undoes double xs as (ys ++ tail)) (second : Undoes double ys bs tail) :
    Undoes double (xs ++ ys) (as ++ bs) tail := by
  intro c last more text reads
  rw [List.append_assoc] at text
  rw [List.length_append, Cursor.skip_add] at reads
  rw [List.map_append, List.append_assoc]
  exact first c last _ text (second _ last more (Cursor.rest_skip_append text) reads)

/-- The text begins with a character on the same line that is no space. -/
def Visible (cs : List Char) : Prop := ∃ ch rest, cs = ch :: rest ∧ isInline ch = true ∧ ch ≠ ' '

theorem visible_cons {ch : Char} (inline : isInline ch = true) (other : ch ≠ ' ') (rest : List Char) :
    Visible (ch :: rest) :=
  ⟨ch, rest, rfl, inline, other⟩

/-- Behind any spaces there is a character on the same line. -/
def Solid (cs : List Char) : Prop :=
  ∃ k ch rest, cs = spaces k ++ ch :: rest ∧ isInline ch = true ∧ ch ≠ ' '

theorem Visible.solid {cs : List Char} (visible : Visible cs) : Solid cs := by
  obtain ⟨ch, rest, rfl, inline, other⟩ := visible
  exact ⟨0, ch, rest, rfl, inline, other⟩

theorem Solid.space {cs : List Char} (solid : Solid cs) : Solid (' ' :: cs) := by
  obtain ⟨k, ch, rest, rfl, inline, other⟩ := solid
  exact ⟨k + 1, ch, rest, rfl, inline, other⟩

theorem exists_fuel {c : Cursor} {ch : Char} {rest : List Char} (text : c.rest = ch :: rest)
    {fuel : Nat} (enough : c.rest.length ≤ fuel) :
    ∃ n, fuel = n + 1 ∧ ∀ k, (c.skip (k + 1)).rest.length ≤ n := by
  rw [text, List.length_cons] at enough
  refine ⟨fuel - 1, by omega, fun k => ?_⟩
  rw [Cursor.rest_skip, text, List.length_drop, List.length_cons]
  omega

/-! Line ends and what stands behind them. -/

theorem atMark_newline {c : Cursor} {rest : List Char} (text : c.rest = '\n' :: rest) :
    c.atMark = false := by
  rw [Cursor.atMark, text]
  rfl

theorem atMark_space {c : Cursor} {rest : List Char} (text : c.rest = ' ' :: rest) :
    c.atMark = false := by
  rw [Cursor.atMark, text]
  rfl

theorem takeWhile_isBlank {k : Nat} {ch : Char} (inline : isInline ch = true) (other : ch ≠ ' ')
    (rest : List Char) : (spaces k ++ ch :: rest).takeWhile Moment.isBlank = spaces k := by
  refine takeWhile_spaces rfl k ?_
  rintro x ⟨⟩
  have tab : ch ≠ '\t' := ne_of_isInline inline (by decide)
  rw [Moment.isBlank, beq_eq_false_iff_ne.2 other, beq_eq_false_iff_ne.2 tab, Bool.false_or]

/-- Empty lines and the spaces of the line behind them. -/
theorem quotedBreaks_lines {k i : Nat} (indented : 0 < i) {ch : Char} (inline : isInline ch = true)
    (other : ch ≠ ' ') {rest : List Char} {c : Cursor}
    (text : c.rest = List.replicate k '\n' ++ (spaces i ++ ch :: rest)) {fuel : Nat}
    (enough : k < fuel) (before : List Char) :
    quotedBreaks fuel c before = .ok (before ++ List.replicate k '\n', c.skip (k + i)) := by
  induction k generalizing c fuel before with
  | zero =>
    obtain ⟨fuel, rfl⟩ : ∃ n, fuel = n + 1 := ⟨fuel - 1, by omega⟩
    rw [List.replicate_zero, List.nil_append] at text
    obtain ⟨j, rfl⟩ : ∃ j, i = j + 1 := ⟨i - 1, by omega⟩
    have mark : c.atMark = false := atMark_space (text.trans rfl)
    have line : c.skipWhile Moment.isBlank = c.skip (j + 1) := by
      rw [Cursor.skipWhile, text, takeWhile_isBlank inline other, length_spaces]
    have left : (c.skip (j + 1)).rest = ch :: rest := Cursor.rest_skip_spaces text
    rw [quotedBreaks, mark, line, Cursor.lineBreak_inline left inline, List.replicate_zero,
      List.append_nil, Nat.zero_add]
    rfl
  | succ k ih =>
    obtain ⟨fuel, rfl⟩ : ∃ n, fuel = n + 1 := ⟨fuel - 1, by omega⟩
    rw [List.replicate_succ, List.cons_append] at text
    have stays : c.skipWhile Moment.isBlank = c := by
      rw [Cursor.skipWhile, text]
      rfl
    have next : c.step.rest = List.replicate k '\n' ++ (spaces i ++ ch :: rest) :=
      Cursor.rest_step_cons text
    rw [quotedBreaks, atMark_newline text, stays, Cursor.lineBreak_newline text]
    simp only [Bool.false_eq_true, if_false]
    rw [ih next (by omega), List.append_assoc, List.singleton_append, ← List.replicate_succ,
      Nat.succ_add]
    rfl

/-! Steps of the reading. -/

section Steps

variable {double : Bool} {tail : List Char}

theorem reads_close_double {c : Cursor} (text : c.rest = '"' :: tail) : Reads true c [] c.step := by
  intro fuel enough
  obtain ⟨fuel, rfl, _⟩ := exists_fuel text enough
  simp only [quoted, text]
  rfl

theorem reads_close_single {c : Cursor} (text : c.rest = '\'' :: tail)
    (other : tail.head? ≠ some '\'') : Reads false c [] c.step := by
  intro fuel enough
  obtain ⟨fuel, rfl, _⟩ := exists_fuel text enough
  simp only [quoted, text, Bool.not_false, and_self, if_true, if_neg other]

theorem undoes_quote : Undoes false ['\'', '\''] ['\''] tail := by
  intro c last more text reads fuel enough
  obtain ⟨fuel, rfl, within⟩ := exists_fuel text enough
  have behind : quoted false fuel (c.skip 2) = .ok (more, last) := reads fuel (within 1)
  simp only [quoted, text, List.cons_append, Bool.not_false, and_self, if_true, List.head?_cons,
    behind]
  rfl

theorem undoes_char {ch : Char} (inline : isInline ch = true) (space : ch ≠ ' ')
    (quote : ch = '\'' → double = true) (doubleQuote : ch = '"' → double = false)
    (slash : ch = '\\' → double = false) : Undoes double [ch] [ch] tail := by
  intro c last more text reads fuel enough
  obtain ⟨fuel, rfl, within⟩ := exists_fuel text enough
  have behind : quoted double fuel c.step = .ok (more, last) := reads fuel (within 0)
  have blank : isBlankOrBreak ch = false := by
    rw [isBlankOrBreak_eq inline, beq_eq_false_iff_ne.2 space]
  have first : ¬(ch = '\'' ∧ (!double) = true) := by
    rintro ⟨same, single⟩
    rw [quote same] at single
    cases single
  have second : ¬(ch = '"' ∧ double = true) := by
    rintro ⟨same, two⟩
    rw [doubleQuote same] at two
    cases two
  have third : ¬(ch = '\\' ∧ double = true) := by
    rintro ⟨same, two⟩
    rw [slash same] at two
    cases two
  simp only [quoted, text, List.cons_append, if_neg first, if_neg second, if_neg third, blank,
    Bool.false_eq_true, if_false, behind]
  rfl

theorem quotedBlanks_spaces {c : Cursor} {k : Nat} (text : c.rest = spaces k ++ tail)
    (visible : Visible tail) : quotedBlanks c = .ok (spaces k, c.skip k) := by
  obtain ⟨ch, rest, rfl, inline, other⟩ := visible
  have beyond : (c.skip k).rest = ch :: rest := Cursor.rest_skip_spaces text
  rw [quotedBlanks, text, takeWhile_isBlank inline other]
  simp only [length_spaces, Cursor.lineBreak_inline beyond inline, beyond, List.isEmpty_cons,
    Bool.false_eq_true, if_false]

theorem quoted_spaces {c : Cursor} {k : Nat} (text : c.rest = spaces (k + 1) ++ tail)
    (visible : Visible tail) (fuel : Nat) : quoted double (fuel + 1) c =
      quoted.push ((spaces (k + 1)).map some) (quoted double fuel (c.skip (k + 1))) := by
  have first : c.rest = ' ' :: (spaces k ++ tail) := text
  simp only [quoted, first]
  rw [quotedBlanks_spaces text visible]
  rfl

theorem push_append {xs ys : List (Option Char)} {r : Except Fault (List (Option Char) × Cursor)} :
    quoted.push (xs ++ ys) r = quoted.push xs (quoted.push ys r) := by
  cases r with
  | error f => rfl
  | ok p => exact congrArg (fun zs => Except.ok (zs, p.2)) (List.append_assoc xs ys p.1)

/-- A space is read with those behind it, as long as the line goes on behind them. -/
theorem undoes_space (solid : Solid tail) : Undoes double [' '] [' '] tail := by
  intro c last more text reads fuel enough
  obtain ⟨fuel, rfl, within⟩ := exists_fuel text enough
  obtain ⟨k, ch, rest, rfl, inline, other⟩ := solid
  have visible := visible_cons inline other rest
  have left : c.step.rest = spaces k ++ ch :: rest := Cursor.rest_step_cons text
  rw [quoted_spaces (k := k) text visible]
  cases k with
  | zero =>
    have behind : quoted double fuel c.step = .ok (more, last) := reads fuel (within 0)
    change quoted.push [some ' '] (quoted double fuel c.step) = _
    rw [behind]
    rfl
  | succ k =>
    -- what is read behind the first space begins with the other spaces
    have behind : quoted double (fuel + 1) c.step = .ok (more, last) :=
      reads (fuel + 1) (Nat.le_succ_of_le (within 0))
    rw [quoted_spaces left visible] at behind
    change quoted.push ([some ' '] ++ (spaces (k + 1)).map some)
      (quoted double fuel (c.step.skip (k + 1))) = _
    rw [push_append, behind]
    rfl

/-- A run of line ends loses one of them, or reads as a space. -/
theorem undoes_lines {i : Nat} (k : Nat) (indented : 0 < i) (visible : Visible tail) :
    Undoes double (List.replicate (k + 1) '\n' ++ spaces i) (joinLines '\n' (List.replicate k '\n'))
      tail := by
  intro c last more text reads fuel enough
  obtain ⟨ch, rest, rfl, inline, other⟩ := visible
  rw [List.append_assoc, List.replicate_succ, List.cons_append] at text
  obtain ⟨fuel, rfl, within⟩ := exists_fuel text enough
  have next : c.step.rest = List.replicate k '\n' ++ (spaces i ++ ch :: rest) :=
    Cursor.rest_step_cons text
  have enough : k < c.step.rest.length + 1 := by
    rw [next, List.length_append, List.length_replicate]
    omega
  have breaks := quotedBreaks_lines indented inline other next enough []
  have width : (List.replicate (k + 1) '\n' ++ spaces i).length = k + i + 1 := by
    rw [List.length_append, List.length_replicate, length_spaces]
    omega
  rw [width] at reads
  have blanks : quotedBlanks c = .ok (joinLines '\n' (List.replicate k '\n'), c.skip (k + i + 1)) := by
    have blankless : c.rest.takeWhile Moment.isBlank = [] := by rw [text]; rfl
    have line : (c.skip 0).lineBreak = (some '\n', c.step) := Cursor.lineBreak_newline text
    simp only [quotedBlanks, blankless, List.length_nil, line, breaks]
    rfl
  have behind := reads fuel (within (k + i))
  simp only [quoted, text]
  rw [blanks]
  change quoted.push _ (quoted double fuel (c.skip (k + i + 1))) = _
  rw [behind]
  rfl

theorem undoes_escape {es out : List Char} (escape : ∀ c : Cursor, c.rest = es ++ tail →
    escaped c = .ok (out.map some, c.skip es.length)) : Undoes true ('\\' :: es) out tail := by
  intro c last more text reads fuel enough
  obtain ⟨fuel, rfl, within⟩ := exists_fuel text enough
  have left : c.step.rest = es ++ tail := Cursor.rest_step_cons text
  have behind : quoted true fuel (c.skip (es.length + 1)) = .ok (more, last) :=
    reads fuel (within es.length)
  simp only [quoted, text, List.cons_append]
  rw [escape c.step left]
  change quoted.push _ (quoted true fuel (c.skip (es.length + 1))) = _
  rw [behind]
  rfl

end Steps

/-! Escapes. -/

theorem escaped_line {c : Cursor} {i : Nat} (indented : 0 < i) {ch : Char}
    (inline : isInline ch = true) (other : ch ≠ ' ') {rest : List Char}
    (text : c.rest = '\n' :: (spaces i ++ ch :: rest)) : escaped c = .ok ([], c.skip (i + 1)) := by
  have next : c.step.rest = List.replicate 0 '\n' ++ (spaces i ++ ch :: rest) :=
    Cursor.rest_step_cons text
  have breaks := quotedBreaks_lines indented inline other next
    (Nat.succ_pos c.step.rest.length) []
  have short : shortEscape? '\n' = none := rfl
  have width : escapeWidth? '\n' = none := rfl
  simp only [escaped, text, short, width, Cursor.lineBreak_newline text, breaks]
  rw [Nat.zero_add]
  rfl

theorem escaped_short {c : Cursor} {e ch : Char} {rest : List Char} (text : c.rest = e :: rest)
    (known : shortEscape? e = some ch) : escaped c = .ok ([some ch], c.step) := by
  simp only [escaped, text, known]

theorem ofCode_toNat (ch : Char) : ofCode ch.toNat = .ok (some ch) := by
  have below : ¬ch.toNat ≥ 0x110000 := Nat.not_le.2 (Text.toNat_lt_limit ch)
  have valid := ch.valid
  simp only [UInt32.isValidChar, Nat.isValidChar] at valid
  have whole : ¬(0xD800 ≤ ch.toNat ∧ ch.toNat ≤ 0xDFFF) := by
    simp only [Char.toNat]
    omega
  rw [ofCode, if_neg below, if_neg whole, Char.ofNat_toNat]

theorem escaped_hex {c : Cursor} {letter ch : Char} {width : Nat} {rest : List Char}
    (text : c.rest = letter :: (Text.hexDigits Text.upperHexDigit width ch.toNat ++ rest))
    (short : shortEscape? letter = none) (known : escapeWidth? letter = some width)
    (fits : ch.toNat < Nat.pow 16 width) : escaped c = .ok ([some ch], c.skip (width + 1)) := by
  have digits : (Text.hexDigits Text.upperHexDigit width ch.toNat ++ rest).take width =
      Text.hexDigits Text.upperHexDigit width ch.toNat :=
    List.take_left' (Text.length_hexDigits _ _ _)
  simp only [escaped, text, short, known, digits, Text.length_hexDigits, if_true,
    Text.hexNumber?_hexDigits Text.readsBack_upperHexDigit fits, ofCode_toNat]
  rfl

theorem shortEscape?_of_written {ch e : Char} (written : Scalar.shortEscape? ch = some e) :
    shortEscape? e = some ch ∧ isInline e = true := by
  obtain ⟨before, behind, table, _⟩ := List.lookup_eq_some_iff.1 written
  have member : (ch, e) ∈ before ++ (ch, e) :: behind := by simp
  rw [← table] at member
  have each : ([('\x00', '0'), ('\x07', 'a'), ('\x08', 'b'), ('\t', 't'), ('\n', 'n'),
      ('\x0b', 'v'), ('\x0c', 'f'), ('\x0d', 'r'), ('\x1b', 'e'), ('"', '"'), ('\\', '\\'),
      ('\u0085', 'N'), ('\u00a0', '_'), ('\u2028', 'L'), ('\u2029', 'P')].all fun p =>
        shortEscape? p.2 == some p.1 && isInline p.2) = true := by decide
  have own := List.all_eq_true.1 each _ member
  rw [Bool.and_eq_true, beq_iff_eq] at own
  exact own

theorem inline_hexDigits (width n : Nat) : Inline (Text.hexDigits Text.upperHexDigit width n) := by
  intro c member
  obtain ⟨d, small, rfl⟩ := Text.mem_hexDigits member
  have each : ∀ d < 16, isInline (Text.upperHexDigit d) = true := by decide
  exact each d small

/-- Every character has an escape on one line that reads back. -/
theorem escape_written (ch : Char) : ∃ es, Scalar.escape ch = '\\' :: es ∧ Inline es ∧
    ∀ (c : Cursor) (rest : List Char), c.rest = es ++ rest →
      escaped c = .ok ([some ch], c.skip es.length) := by
  rw [Scalar.escape]
  split
  · next e written =>
    obtain ⟨known, inline⟩ := shortEscape?_of_written written
    exact ⟨[e], rfl, .cons inline inline_nil, fun c rest text => escaped_short text known⟩
  · have hex : ∀ (letter : Char) (width : Nat), shortEscape? letter = none →
        escapeWidth? letter = some width → isInline letter = true →
        ch.toNat < Nat.pow 16 width → ∃ es,
          '\\' :: letter :: Text.hexDigits Text.upperHexDigit width ch.toNat = '\\' :: es ∧
          Inline es ∧ ∀ (c : Cursor) (rest : List Char), c.rest = es ++ rest →
            escaped c = .ok ([some ch], c.skip es.length) := by
      intro letter width short known inline fits
      refine ⟨_, rfl, .cons inline (inline_hexDigits _ _), fun c rest text => ?_⟩
      rw [List.length_cons, Text.length_hexDigits]
      exact escaped_hex text short known fits
    split
    · next small => exact hex 'x' 2 rfl rfl (by decide) small
    · split
      · next small => exact hex 'u' 4 rfl rfl (by decide) small
      · exact hex 'U' 8 rfl rfl (by decide) (Nat.lt_trans (Text.toNat_lt_limit ch) (by decide))

/-! Whole texts in single quotes. -/

theorem mixesBlanks_tail {c : Char} {cs : List Char} (unmixed : mixesBlanks (c :: cs) = false) :
    mixesBlanks cs = false := by
  cases cs with
  | nil => rfl
  | cons d cs =>
    simp only [mixesBlanks, Bool.or_eq_false_iff] at unmixed
    exact unmixed.2

theorem mixesBlanks_space {cs : List Char} (unmixed : mixesBlanks (' ' :: cs) = false) :
    cs.head? ≠ some '\n' := by
  cases cs with
  | nil => simp
  | cons d cs =>
    rintro head
    rw [List.head?_cons, Option.some.injEq] at head
    subst head
    cases unmixed

theorem mixesBlanks_lines {k : Nat} {cs : List Char}
    (unmixed : mixesBlanks (List.replicate (k + 1) '\n' ++ cs) = false) :
    cs.head? ≠ some ' ' ∧ mixesBlanks cs = false := by
  induction k with
  | zero =>
    refine ⟨?_, mixesBlanks_tail unmixed⟩
    cases cs with
    | nil => simp
    | cons d cs =>
      rintro head
      rw [List.head?_cons, Option.some.injEq] at head
      subst head
      cases unmixed
  | succ k ih => exact ih (mixesBlanks_tail unmixed)

section Single

variable {m : Margin}

theorem single_more_lines (first : Bool) (col k : Nat) {cs : List Char}
    (other : cs.head? ≠ some '\n') :
    Scalar.single m first col '\n' (List.replicate (k + 1) '\n' ++ cs) =
      List.replicate (k + 1) '\n' ++
        (spaces m.indent ++ Scalar.single m false m.indent '\n' cs) := by
  induction k generalizing first col with
  | zero =>
    change Scalar.single m first col '\n' ('\n' :: cs) = _
    rw [Scalar.single, if_pos rfl, if_neg other]
    rfl
  | succ k ih =>
    have more : (List.replicate (k + 1) '\n' ++ cs).head? = some '\n' := rfl
    rw [List.replicate_succ, List.cons_append, Scalar.single, if_pos rfl, if_pos more, ih]
    rfl

theorem single_lines (first : Bool) (col k : Nat) {before : Char} (fresh : before ≠ '\n')
    {cs : List Char} (other : cs.head? ≠ some '\n') :
    Scalar.single m first col before (List.replicate (k + 1) '\n' ++ cs) =
      List.replicate (k + 2) '\n' ++
        (spaces m.indent ++ Scalar.single m false m.indent '\n' cs) := by
  cases k with
  | zero =>
    change Scalar.single m first col before ('\n' :: cs) = _
    rw [Scalar.single, if_pos rfl, if_neg other, if_neg fresh]
    rfl
  | succ k =>
    have more : (List.replicate (k + 1) '\n' ++ cs).head? = some '\n' := rfl
    rw [List.replicate_succ, List.cons_append, Scalar.single, if_pos rfl, if_pos more,
      if_neg fresh, single_more_lines false _ k other]
    rfl

theorem single_visible (first : Bool) (col : Nat) (before : Char) {cs : List Char}
    (shown : cs.all isShown = true) (space : cs.head? ≠ some ' ') (line : cs.head? ≠ some '\n')
    (tail : List Char) : Visible (Scalar.single m first col before cs ++ '\'' :: tail) := by
  cases cs with
  | nil => exact visible_cons (by decide) (by decide) tail
  | cons c cs =>
    rw [List.head?_cons, ne_eq, Option.some.injEq] at space line
    rw [List.all_cons, Bool.and_eq_true, isShown_eq, beq_eq_false_iff_ne.2 line, Bool.false_or] at shown
    have stays : Scalar.mayFold (before == ' ') c cs = false := by
      rw [Scalar.mayFold, beq_eq_false_iff_ne.2 space]
      rfl
    rw [Scalar.single, if_neg line]
    by_cases quote : c = '\''
    · rw [if_pos quote]
      exact visible_cons (by decide) (by decide) _
    · rw [if_neg quote, stays, Bool.and_false, Bool.false_and, if_neg Bool.false_ne_true]
      exact visible_cons shown.1 space _

/-- A space that has a space before it is never a place to fold. -/
theorem single_solid (first : Bool) (col : Nat) {cs : List Char} (shown : cs.all isShown = true)
    (unmixed : mixesBlanks (' ' :: cs) = false) (tail : List Char) :
    Solid (Scalar.single m first col ' ' cs ++ '\'' :: tail) := by
  induction cs generalizing first col with
  | nil => exact (visible_cons (by decide) (by decide) tail).solid
  | cons c cs ih =>
    by_cases space : c = ' '
    · subst space
      have stays : Scalar.mayFold (' ' == ' ') ' ' cs = false := rfl
      rw [Scalar.single, if_neg (by decide), if_neg (by decide), stays, Bool.and_false,
        Bool.false_and, if_neg Bool.false_ne_true]
      rw [List.all_cons, Bool.and_eq_true] at shown
      exact (ih false (col + 1) shown.2 (mixesBlanks_tail unmixed)).space
    · exact (single_visible first col ' ' shown (by simpa using space) (mixesBlanks_space unmixed)
        tail).solid

/-- There is room for further lines: they are indented, or there is none. -/
def Roomy (m : Margin) (cs : List Char) : Prop :=
  0 < m.indent ∨ m.folds = false ∧ '\n' ∉ cs

/-- What single quotes can hold, behind that character. -/
structure Quotable (m : Margin) (before : Char) (cs : List Char) : Prop where
  roomy : Roomy m cs
  shown : cs.all isShown = true
  unmixed : mixesBlanks cs = false
  fresh : cs.head? = some '\n' → before ≠ '\n'

namespace Quotable

variable {before x : Char} {xs : List Char}

theorem behind (ok : Quotable m before (x :: xs)) (other : x ≠ '\n') : Quotable m x xs where
  roomy := ok.roomy.imp_right fun h => ⟨h.1, fun member => h.2 (List.mem_cons_of_mem x member)⟩
  shown := by
    have shown := ok.shown
    rw [List.all_cons, Bool.and_eq_true] at shown
    exact shown.2
  unmixed := mixesBlanks_tail ok.unmixed
  fresh := fun _ => other

theorem behind_lines {k : Nat} (ok : Quotable m before (List.replicate (k + 1) '\n' ++ xs))
    (other : xs.head? ≠ some '\n') : Quotable m '\n' xs where
  roomy := ok.roomy.imp_right fun h => ⟨h.1, fun member => h.2 (List.mem_append_right _ member)⟩
  shown := by
    have shown := ok.shown
    rw [List.all_append, Bool.and_eq_true] at shown
    exact shown.2
  unmixed := (mixesBlanks_lines ok.unmixed).2
  fresh := fun line => absurd line other

theorem inline (ok : Quotable m before (x :: xs)) (other : x ≠ '\n') : isInline x = true := by
  have shown := ok.shown
  rw [List.all_cons, Bool.and_eq_true, isShown_eq, beq_eq_false_iff_ne.2 other, Bool.false_or] at shown
  exact shown.1

theorem indented (ok : Quotable m before xs) (lines : m.folds = true ∨ '\n' ∈ xs) : 0 < m.indent := by
  rcases ok.roomy with h | ⟨straight, single⟩
  · exact h
  · rcases lines with folds | member
    · exact absurd folds (by rw [straight]; exact Bool.false_ne_true)
    · exact absurd member single

end Quotable

/-- The induction is on the length: a run of line ends is read at once. -/
theorem undoes_single (tail : List Char) (n : Nat) : ∀ (first : Bool) (col : Nat) (before : Char)
    (cs : List Char), cs.length ≤ n → Quotable m before cs →
    Undoes false (Scalar.single m first col before cs) cs ('\'' :: tail) := by
  induction n with
  | zero =>
    intro first col before cs short ok
    obtain rfl : cs = [] := List.length_eq_zero_iff.1 (by omega)
    exact .nil
  | succ n ih =>
    intro first col before cs short ok
    cases cs with
    | nil => exact .nil
    | cons x xs =>
      have shorter : xs.length ≤ n := Nat.le_of_succ_le_succ short
      by_cases line : x = '\n'
      · subst line
        obtain ⟨k, rest, rfl, other⟩ := exists_run '\n' xs
        change Quotable m before (List.replicate (k + 1) '\n' ++ rest) at ok
        have behind := ok.behind_lines other
        have visible := single_visible (m := m) false m.indent '\n' behind.shown
          (mixesBlanks_lines ok.unmixed).1 other tail
        have lines : Undoes false (List.replicate (k + 2) '\n' ++ spaces m.indent)
            (List.replicate (k + 1) '\n') _ :=
          undoes_lines (k + 1) (ok.indented (.inr List.mem_cons_self)) visible
        have written := single_lines (m := m) first col k (ok.fresh rfl) other
        rw [← List.append_assoc] at written
        change Undoes false (Scalar.single m first col before (List.replicate (k + 1) '\n' ++ rest))
          (List.replicate (k + 1) '\n' ++ rest) _
        rw [written]
        exact lines.append (ih false m.indent '\n' rest
          (by rw [List.length_append] at shorter; omega) behind)
      · have behind := ok.behind line
        have more := fun col => ih false col x xs shorter behind
        rw [Scalar.single, if_neg line]
        by_cases quote : x = '\''
        · subst quote
          rw [if_pos rfl]
          exact undoes_quote.append (more _)
        · rw [if_neg quote]
          split
          · next fold =>
            simp only [Scalar.mayFold, Bool.and_eq_true, beq_iff_eq] at fold
            obtain ⟨⟨⟨folds, _⟩, ⟨rfl, _⟩, next⟩, _⟩ := fold
            have solid : xs.head? ≠ some ' ' := by
              intro h
              rw [h] at next
              cases next
            have visible := single_visible (m := m) false m.indent ' ' behind.shown solid
              (mixesBlanks_space ok.unmixed) tail
            exact (undoes_lines 0 (ok.indented (.inl folds)) visible).append (more m.indent)
          · by_cases space : x = ' '
            · subst space
              exact (undoes_space (single_solid false (col + 1) behind.shown ok.unmixed tail)).append
                (more (col + 1))
            · exact (undoes_char (ok.inline line) space (fun h => absurd h quote) (fun _ => rfl)
                (fun _ => rfl)).append (more (col + 1))

end Single

/-! Whole texts in double quotes. -/

section Double

variable {m : Margin}

theorem undoes_escaped (ch : Char) (tail : List Char) : Undoes true (Scalar.escape ch) [ch] tail := by
  obtain ⟨es, written, _, reads⟩ := escape_written ch
  rw [written]
  exact undoes_escape fun c text => reads c tail text

/-- An escaped line end reads as nothing. -/
theorem undoes_fold (indented : 0 < m.indent) {tail : List Char} (visible : Visible tail) :
    Undoes true ('\\' :: Scalar.newLine m) [] tail := by
  obtain ⟨ch, rest, rfl, inline, other⟩ := visible
  refine undoes_escape fun c text => ?_
  rw [Scalar.newLine, List.length_cons, List.length_replicate]
  exact escaped_line indented inline other text

/-- An escaped space at the beginning of a line. -/
theorem undoes_fold_space (indented : 0 < m.indent) (tail : List Char) :
    Undoes true ('\\' :: Scalar.newLine m ++ ['\\', ' ']) [' '] tail := by
  have space : Undoes true ['\\', ' '] [' '] tail :=
    undoes_escape fun _ text => escaped_short text rfl
  have visible : Visible ('\\' :: ' ' :: tail) := visible_cons (by decide) (by decide) (' ' :: tail)
  exact (undoes_fold indented visible).append space

theorem not_isEscaped {c : Char} (plain : Scalar.isEscaped c = false) :
    c ≠ '"' ∧ c ≠ '\\' ∧ isInline c = true := by
  simp only [Scalar.isEscaped, Bool.or_eq_false_iff, beq_eq_false_iff_ne, Bool.not_eq_false'] at plain
  exact ⟨plain.1.1, plain.1.2, plain.2⟩

theorem double_visible (first afterFold : Bool) (col : Nat) {cs : List Char}
    (space : cs.head? ≠ some ' ') (tail : List Char) :
    Visible (Scalar.double m first afterFold col cs ++ '"' :: tail) := by
  have slash : ∀ rest, Visible ('\\' :: rest) := fun rest => visible_cons (by decide) (by decide) rest
  cases cs with
  | nil => exact visible_cons (by decide) (by decide) tail
  | cons c cs =>
    obtain ⟨es, written, _, _⟩ := escape_written c
    have lines : ∀ xs, ∃ ys, (Scalar.escapedLine m xs).1 = '\\' :: ys := by
      intro xs
      rw [Scalar.escapedLine]
      split
      · exact ⟨_, rfl⟩
      · exact ⟨_, rfl⟩
    rw [Scalar.double]
    split
    · rw [written]
      dsimp only
      split
      · exact slash _
      · exact slash _
    · next plain =>
      dsimp only
      split
      · obtain ⟨ys, line⟩ := lines (c :: cs)
        rw [line]
        exact slash _
      · have own := not_isEscaped (by simpa using plain)
        exact visible_cons own.2.2 (by simpa using space) _

theorem double_space (first afterFold : Bool) (col : Nat) (cs : List Char) :
    Scalar.double m first afterFold col (' ' :: cs) =
      if m.folds && !first && !cs.isEmpty && decide (Scalar.bestWidth < col) then
        '\\' :: Scalar.newLine m ++ ['\\', ' '] ++ Scalar.double m false false (m.indent + 2) cs
      else ' ' :: Scalar.double m false false (col + 1) cs := by
  have plain : Scalar.isEscaped ' ' = false := by decide
  rw [Scalar.double, plain, if_neg Bool.false_ne_true]
  simp only [beq_self_eq_true, Bool.true_or, Bool.and_true]
  split
  · simp [Scalar.escapedLine]
  · rfl

theorem double_char (first afterFold : Bool) (col : Nat) {x : Char}
    (plain : Scalar.isEscaped x = false) (space : x ≠ ' ') (xs : List Char) :
    Scalar.double m first afterFold col (x :: xs) =
      if m.folds && !first && !xs.isEmpty && afterFold && decide (Scalar.bestWidth < col) then
        '\\' :: Scalar.newLine m ++ [x] ++ Scalar.double m false false (m.indent + 1) xs
      else x :: Scalar.double m false false (col + 1) xs := by
  rw [Scalar.double, plain, if_neg Bool.false_ne_true]
  simp only [beq_eq_false_iff_ne.2 space, Bool.false_or]
  split
  · simp [Scalar.escapedLine, space]
  · rfl

theorem double_escaped (first afterFold : Bool) (col : Nat) {x : Char}
    (escaped : Scalar.isEscaped x = true) (xs : List Char) :
    Scalar.double m first afterFold col (x :: xs) = Scalar.escape x ++
      if m.folds && !first && !xs.isEmpty &&
          decide (Scalar.bestWidth + 1 < col + (Scalar.escape x).length) then
        (Scalar.escapedLine m xs).1 ++ Scalar.double m false true (Scalar.escapedLine m xs).2 xs
      else Scalar.double m false true (col + (Scalar.escape x).length) xs := by
  rw [Scalar.double, if_pos escaped]
  dsimp only
  split
  · rw [List.append_assoc]
  · rfl

theorem head?_ne_space {xs : List Char} (other : ∀ ys, xs = ' ' :: ys → False) :
    xs.head? ≠ some ' ' := by
  cases xs with
  | nil => simp
  | cons x xs =>
    intro h
    exact other xs (by rw [Option.some.inj h])

/-- An escaped line end and the text behind it. -/
theorem escapedLine_double (roomy : m.indent < Scalar.bestWidth) (xs : List Char) :
    (Scalar.escapedLine m xs).1 ++ Scalar.double m false true (Scalar.escapedLine m xs).2 xs =
      match xs with
      | ' ' :: ys =>
        '\\' :: Scalar.newLine m ++ ['\\', ' '] ++ Scalar.double m false false (m.indent + 2) ys
      | ys => '\\' :: Scalar.newLine m ++ Scalar.double m false true m.indent ys := by
  split
  · next ys =>
    have wide : decide (Scalar.bestWidth < m.indent + 1) = false := decide_eq_false (by omega)
    rw [Scalar.escapedLine, if_pos List.head?_cons, double_space, wide, Bool.and_false,
      if_neg Bool.false_ne_true]
    simp only [List.append_assoc, List.cons_append, List.nil_append]
  · next other => rw [Scalar.escapedLine, if_neg (head?_ne_space other)]

theorem double_solid (first afterFold : Bool) (col : Nat) (cs tail : List Char) :
    Solid (Scalar.double m first afterFold col cs ++ '"' :: tail) := by
  induction cs generalizing first afterFold col with
  | nil => exact (visible_cons (by decide) (by decide) tail).solid
  | cons c cs ih =>
    by_cases space : c = ' '
    · subst space
      rw [double_space]
      split
      · exact (visible_cons (by decide) (by decide) _).solid
      · exact (ih false false (col + 1)).space
    · exact (double_visible first afterFold col (by simpa using space) tail).solid

/-- The induction is on the length: behind an escaped line end a space is read with the next step. -/
theorem undoes_double (roomy : m.folds = true → 0 < m.indent ∧ m.indent < Scalar.bestWidth)
    (tail : List Char) (n : Nat) : ∀ (first afterFold : Bool) (col : Nat) (cs : List Char),
    cs.length ≤ n → Undoes true (Scalar.double m first afterFold col cs) cs ('"' :: tail) := by
  induction n with
  | zero =>
    intro first afterFold col cs short
    obtain rfl : cs = [] := List.length_eq_zero_iff.1 (by omega)
    exact .nil
  | succ n ih =>
    intro first afterFold col cs short
    cases cs with
    | nil => exact .nil
    | cons x xs =>
      have shorter : xs.length ≤ n := Nat.le_of_succ_le_succ short
      have more := fun afterFold col => ih false afterFold col xs shorter
      by_cases escaped : Scalar.isEscaped x = true
      · rw [double_escaped first afterFold col escaped]
        refine (undoes_escaped x _).append ?_
        split
        · next fold =>
          simp only [Bool.and_eq_true] at fold
          have room := roomy fold.1.1.1
          rw [escapedLine_double room.2]
          split
          · next ys =>
            exact (undoes_fold_space room.1 _).append
              (ih false false (m.indent + 2) ys (Nat.le_of_succ_le shorter))
          · next other =>
            exact (undoes_fold room.1 (double_visible false true m.indent (head?_ne_space other)
              tail)).append (more true m.indent)
        · exact more true _
      · have own := not_isEscaped (by simpa using escaped)
        by_cases space : x = ' '
        · subst space
          rw [double_space]
          split
          · next fold =>
            simp only [Bool.and_eq_true] at fold
            exact (undoes_fold_space (roomy fold.1.1.1).1 _).append (more false _)
          · exact (undoes_space (double_solid false false (col + 1) xs tail)).append (more false _)
        · have char : ∀ tail, Undoes true [x] [x] tail := fun _ => undoes_char own.2.2 space
            (fun _ => rfl) (fun h => absurd h own.1) (fun h => absurd h own.2.1)
          rw [double_char first afterFold col (by simpa using escaped) space]
          split
          · next fold =>
            simp only [Bool.and_eq_true] at fold
            have line := undoes_fold (roomy fold.1.1.1.1).1 (visible_cons own.2.2 space
              (Scalar.double m false false (m.indent + 1) xs ++ '"' :: tail))
            exact (line.append (char _)).append (more false _)
          · exact (char _).append (more false _)

end Double

end ScalarText

/-! Whole scalars. -/

namespace Lexer

open ScalarText

theorem mapM_some (cs : List Char) : (cs.map some).mapM id = some cs := by
  induction cs with
  | nil => rfl
  | cons c cs ih =>
    rw [List.map_cons, List.mapM_cons, ih]
    rfl

theorem quoted_of_undoes {double : Bool} {written cs tail : List Char} {c : Cursor}
    (undoes : Undoes double written cs tail) (text : c.step.rest = written ++ tail)
    (close : ∀ d : Cursor, d.rest = tail → Reads double d [] d.step) :
    quoted double c = .ok (.scalar (some cs) false, c.skip (written.length + 2)) := by
  have enough : c.step.rest.length ≤ c.rest.length := by
    rw [Cursor.rest_step, List.length_tail]
    omega
  have reads := undoes c.step _ [] text (close _ (Cursor.rest_skip_append text))
  have behind : (c.step.skip written.length).step = c.skip (written.length + 2) :=
    (Cursor.skip_add written.length 1 c.step).symm
  rw [List.append_nil, behind] at reads
  rw [quoted, reads c.rest.length enough]
  change Except.ok (Token.scalar ((cs.map some).mapM id) false, _) = _
  rw [mapM_some]

variable {m : Margin} {col : Nat} {cs : List Char} {c : Cursor} {tail : List Char}

theorem quoted_single (roomy : Roomy m cs) (allowed : allowsSingle cs = true)
    (text : c.rest = Scalar.write m .single col cs ++ tail) (close : tail.head? ≠ some '\'') :
    quoted false c =
      .ok (.scalar (some cs) false, c.skip (Scalar.write m .single col cs).length) := by
  rw [allowsSingle, Bool.and_eq_true, Bool.not_eq_true'] at allowed
  rw [Scalar.write, List.append_assoc] at text
  have left : c.step.rest = Scalar.single m true (col + 1) '\x00' cs ++ '\'' :: tail :=
    Cursor.rest_step_cons text
  have ok : Quotable m '\x00' cs := ⟨roomy, allowed.1, allowed.2, fun _ => by decide⟩
  have undoes := undoes_single tail cs.length true (col + 1) '\x00' cs (Nat.le_refl _) ok
  rw [quoted_of_undoes undoes left fun _ here => reads_close_single here close, Scalar.write,
    List.length_append]
  rfl

theorem quoted_double (roomy : m.folds = true → 0 < m.indent ∧ m.indent < Scalar.bestWidth)
    (text : c.rest = Scalar.write m .double col cs ++ tail) :
    quoted true c =
      .ok (.scalar (some cs) false, c.skip (Scalar.write m .double col cs).length) := by
  rw [Scalar.write, List.append_assoc] at text
  have left : c.step.rest = Scalar.double m true true (col + 1) cs ++ '"' :: tail :=
    Cursor.rest_step_cons text
  have undoes := undoes_double roomy tail cs.length true true (col + 1) cs (Nat.le_refl _)
  rw [quoted_of_undoes undoes left fun _ here => reads_close_double here, Scalar.write,
    List.length_append]
  rfl

end Lexer

end NamespacePlan.Yaml
