import NamespacePlan.Proofs.XmlReaders
import NamespacePlan.Xml.Entity

/-! Values of attributes that are written with references. A value is read back from all ways to write
it, whatever entities are declared. -/
namespace NamespacePlan.Xml

/-! Names. -/

def IsName (cs : List Char) : Prop := cs.head?.any isNameStart = true ∧ ∀ c ∈ cs, isNameChar c = true

instance (cs : List Char) : Decidable (IsName cs) :=
  @instDecidableAnd _ _ _ (List.decidableBAll (isNameChar · = true) cs)

theorem IsName.exists_head {cs : List Char} (named : IsName cs) :
    ∃ c tail, cs = c :: tail ∧ isNameStart c = true := by
  obtain ⟨starts, _⟩ := named
  cases cs with
  | nil => cases starts
  | cons c tail => exact ⟨c, tail, rfl, starts⟩

theorem toNat_of_isNameStart {c : Char} (starts : isNameStart c = true) : 0x3A ≤ c.toNat := by
  have least : ∀ r ∈ nameStartRanges, 0x3A ≤ r.1 := by decide
  obtain ⟨r, listed, within, _⟩ := (Text.Ranges.mem_iff _ c).1 starts
  exact (least r listed).trans within

theorem IsName.read {name : List Char} (named : IsName name) {c : Char} (other : isNameChar c = false)
    (visible : c ≠ '\x00') (rest : List Char) : name? (name ++ c :: rest) = some (name, c :: rest) := by
  refine name?_eq_some_iff.2 ⟨⟨⟨?_, ?_⟩, ?_⟩, ?_⟩
  · rw [List.takeWhile_append_of_pos named.2, List.takeWhile_cons_of_neg (by simp [other]),
      List.append_nil]
  · rw [List.dropWhile_append_of_pos named.2, List.dropWhile_cons_of_neg (by simp [other])]
  · obtain ⟨d, tail, rfl, starts⟩ := named.exists_head
    exact starts
  · simpa using visible

/-! Spellings. -/

/-- The characters that stand in a value as references only: those of the markup, quotes, and the white
space that would read as a space. -/
def escapedChars : List Char := ['<', '>', '&', '"', '\'', '\t', '\n', '\r']

/-- The ways to write a character in a value. -/
inductive Spelled (c : Char) : List Char → Prop where
  | plain (free : c ∉ escapedChars) : Spelled c [c]
  | named (name : String) (listed : (name, c) ∈ commonEntities) :
    Spelled c ('&' :: (name.toList ++ [';']))
  | decimal (ds : List Char) (some' : ds ≠ []) (digits : ds.all Text.isDigit = true)
    (value : Text.natOf ds = c.toNat) : Spelled c ('&' :: '#' :: (ds ++ [';']))
  | hexadecimal (ds : List Char) (some' : ds ≠ [])
    (digits : ds.all (fun d => (Text.hexValue? d).isSome) = true)
    (value : Text.hexNumber? ds = some c.toNat) : Spelled c ('&' :: '#' :: 'x' :: (ds ++ [';']))

inductive Escaped : List Char → List Char → Prop where
  | nil : Escaped [] []
  | cons {c : Char} {piece value raw : List Char} (first : Spelled c piece) (others : Escaped value raw) :
    Escaped (c :: value) (piece ++ raw)

/-- One way to write each character: white space with its number, all else that has one by name. -/
def escape (c : Char) : List Char :=
  match commonEntities.find? fun e => e.2 == c with
  | some e => '&' :: (e.1.toList ++ [';'])
  | none =>
    if c ∈ ['\t', '\n', '\r'] then '&' :: '#' :: (Nat.toDigits 10 c.toNat ++ [';']) else [c]

theorem spelled_escape (c : Char) : Spelled c (escape c) := by
  unfold escape
  split
  · next e found =>
    obtain rfl : e.2 = c := by simpa using List.find?_some found
    exact .named e.1 (List.mem_of_find?_eq_some found)
  · next missing =>
    split
    · next white =>
      simp only [List.mem_cons, List.not_mem_nil, or_false] at white
      rcases white with rfl | rfl | rfl <;> exact .decimal _ (by decide) (by decide) (by decide)
    · next visible =>
      refine .plain fun special => visible ?_
      have unnamed : ∀ e ∈ commonEntities, e.2 ≠ c := by simpa using missing
      simp [commonEntities, escapedChars, eq_comm] at unnamed special ⊢
      grind

theorem escaped_flatMap (value : List Char) : Escaped value (value.flatMap escape) := by
  induction value with
  | nil => exact .nil
  | cons c value ih => exact .cons (spelled_escape c) ih

theorem charOfCode?_toNat {c : Char} (legal : isChar c = true) : charOfCode? c.toNat = some c := by
  simp [charOfCode?, Char.ofNat_toNat, legal]

theorem charReference?_decimal {c : Char} (legal : isChar c = true) {ds : List Char} (some' : ds ≠ [])
    (digits : ∀ d ∈ ds, Text.isDigit d = true) (value : Text.natOf ds = c.toNat) (rest : List Char) :
    charReference? (ds ++ ';' :: rest) = some (c, rest) := by
  have taken : (ds ++ ';' :: rest).takeWhile Text.isDigit = ds := by
    rw [List.takeWhile_append_of_pos digits, List.takeWhile_cons_of_neg (by decide), List.append_nil]
  obtain ⟨d, tail, rfl⟩ := List.exists_cons_of_ne_nil some'
  have other : d ≠ 'x' := by
    rintro rfl
    exact absurd (digits _ List.mem_cons_self) (by decide)
  rw [List.cons_append] at taken ⊢
  simp [charReference?, other, taken, value, charOfCode?_toNat legal]

theorem charReference?_hexadecimal {c : Char} (legal : isChar c = true) {ds : List Char}
    (some' : ds ≠ []) (digits : ∀ d ∈ ds, (Text.hexValue? d).isSome = true)
    (value : Text.hexNumber? ds = some c.toNat) (rest : List Char) :
    charReference? ('x' :: (ds ++ ';' :: rest)) = some (c, rest) := by
  have taken : (ds ++ ';' :: rest).takeWhile (fun c => (Text.hexValue? c).isSome) = ds := by
    rw [List.takeWhile_append_of_pos digits, List.takeWhile_cons_of_neg (by decide), List.append_nil]
  obtain ⟨d, tail, rfl⟩ := List.exists_cons_of_ne_nil some'
  simp only [charReference?]
  rw [taken, List.drop_left, value]
  simp [charOfCode?_toNat legal]

theorem isName_common : ∀ e ∈ commonEntities, IsName e.1.toList := by decide

theorem lookup_common : ∀ e ∈ commonEntities, commonEntities.lookup e.1 = some e.2 := by decide

theorem read_plain {c : Char} (free : c ∉ escapedChars) (legal : isChar c = true) (fuel : Nat)
    (rest : List Char) : Piece.read true (fuel + 1) (c :: rest) =
      (Piece.read true fuel rest).map (Piece.char c :: ·) := by
  simp only [escapedChars, List.mem_cons, List.not_mem_nil, or_false, not_or] at free
  have space : (if isBlank c = true then ' ' else c) = c := by
    split
    · next blank =>
      simp [isBlank, free] at blank
      exact blank.symm
    · rfl
  rw [Piece.read]
  · simp [free, legal, space]
  · exact fun _ amp => absurd amp free.2.2.1
  · exact fun amp => absurd amp free.2.2.1

theorem read_common {name : String} {c : Char} (listed : (name, c) ∈ commonEntities) (fuel : Nat)
    (rest : List Char) : Piece.read true (fuel + 1) ('&' :: (name.toList ++ ';' :: rest)) =
      (Piece.read true fuel rest).map (Piece.char c :: ·) := by
  have named := isName_common _ listed
  have whole : entityName? (name.toList ++ ';' :: rest) = some (name, rest) :=
    entityName?_eq_some_iff.2 ⟨_, _, named.read (by decide) (by decide) rest, rfl, String.ofList_toList⟩
  rw [Piece.read]
  · simp [whole, lookup_common _ listed]
  · intro tail numbered
    obtain ⟨d, letters, first, starts⟩ := named.exists_head
    dsimp only at first
    rw [first] at numbered
    obtain rfl : d = '#' := (List.cons.inj numbered).1
    exact absurd starts (by decide)

/-- What a character is written with is read as the character. -/
theorem Spelled.read {c : Char} {piece : List Char} (spelled : Spelled c piece) (legal : isChar c = true)
    (fuel : Nat) (rest : List Char) : Piece.read true (fuel + 1) (piece ++ rest) =
      (Piece.read true fuel rest).map (Piece.char c :: ·) := by
  cases spelled with
  | plain free => exact read_plain free legal fuel rest
  | named name listed =>
    rw [List.cons_append, List.append_assoc, List.singleton_append]
    exact read_common listed fuel rest
  | decimal ds some' digits value =>
    rw [List.cons_append, List.cons_append, List.append_assoc, List.singleton_append, Piece.read,
      charReference?_decimal legal some' (List.all_eq_true.1 digits) value]
    rfl
  | hexadecimal ds some' digits value =>
    rw [List.cons_append, List.cons_append, List.cons_append, List.append_assoc, List.singleton_append,
      Piece.read, charReference?_hexadecimal legal some' (List.all_eq_true.1 digits) value]
    rfl

theorem Spelled.length_pos {c : Char} {piece : List Char} (spelled : Spelled c piece) :
    0 < piece.length := by
  cases spelled <;> simp

/-- Neither quotes nor carriage returns stand in a value as it is written. -/
theorem Spelled.free {c q : Char} {piece : List Char} (spelled : Spelled c piece)
    (special : q ∈ ['"', '\'', '\r']) : q ∉ piece := by
  have other : q ∈ escapedChars ∧ q ∉ ['&', '#', 'x', ';'] ∧ Text.isDigit q = false ∧
      (Text.hexValue? q).isSome = false ∧ isNameChar q = false := by
    simp only [List.mem_cons, List.not_mem_nil, or_false] at special
    rcases special with rfl | rfl | rfl <;> decide
  obtain ⟨escaped, unmarked, undigital, unhex, nameless⟩ := other
  simp only [List.mem_cons, List.not_mem_nil, or_false, not_or] at unmarked
  have absent : ∀ {p : Char → Bool} {ds : List Char}, (∀ d ∈ ds, p d = true) → p q = false → q ∉ ds := by
    intro p ds all lacks member
    cases lacks.symm.trans (all q member)
  cases spelled with
  | plain free =>
    rw [List.mem_singleton]
    rintro rfl
    exact free escaped
  | named name listed => simp [unmarked, absent (isName_common _ listed).2 nameless]
  | decimal ds _ digits => simp [unmarked, absent (List.all_eq_true.1 digits) undigital]
  | hexadecimal ds _ digits => simp [unmarked, absent (List.all_eq_true.1 digits) unhex]

theorem Escaped.free {value raw : List Char} (escaped : Escaped value raw) {q : Char}
    (special : q ∈ ['"', '\'', '\r']) : q ∉ raw := by
  induction escaped with
  | nil => exact List.not_mem_nil
  | cons first others ih =>
    rw [List.mem_append, not_or]
    exact ⟨first.free special, ih⟩

theorem Escaped.read {value raw : List Char} (escaped : Escaped value raw)
    (legal : ∀ c ∈ value, isChar c = true) {fuel : Nat} (enough : raw.length ≤ fuel) :
    Piece.read true fuel raw = some (value.map Piece.char) := by
  induction escaped generalizing fuel with
  | nil => cases fuel <;> rfl
  | @cons c piece value raw first others ih =>
    have visible := first.length_pos
    rw [List.length_append] at enough
    obtain ⟨fuel, rfl⟩ : ∃ n, fuel = n + 1 := ⟨fuel - 1, by omega⟩
    rw [first.read (legal c List.mem_cons_self),
      ih (fun d listed => legal d (List.mem_cons_of_mem c listed)) (by omega)]
    rfl

/-! Values. -/

theorem roomLeft_chars (es : Entities) (depth room : Nat) (cs : List Char) :
    Piece.roomLeft es (depth + 1) room (cs.map Piece.char) = some room := by
  rw [Piece.roomLeft]
  induction cs with
  | nil => rfl
  | cons c cs ih => exact ih

theorem mapM_chars {read : Piece → Option (List Char)} (same : ∀ c, read (.char c) = some [c])
    (cs : List Char) : (cs.map Piece.char).mapM read = some (cs.map fun c => [c]) := by
  induction cs with
  | nil => rfl
  | cons c cs ih =>
    rw [List.map_cons, List.mapM_cons, ih, same]
    rfl

theorem expand_chars (asSpace : Bool) (es : Entities) (depth : Nat) (cs : List Char) :
    Piece.expand asSpace es (depth + 1) (cs.map Piece.char) = some cs := by
  rw [Piece.expand, mapM_chars fun _ => rfl, Option.map_some, ← List.flatMap_def,
    List.flatMap_singleton']

theorem Escaped.attributeValue {value raw : List Char} (escaped : Escaped value raw)
    (legal : ∀ c ∈ value, isChar c = true) (es : Entities) (asSpace : Bool) :
    es.attributeValue asSpace false raw = some value := by
  rw [Entities.attributeValue, escaped.read legal (Nat.le_refl _)]
  simp only [Option.bind_eq_bind, Option.bind_some, Entities.depthLimit, roomLeft_chars]
  exact expand_chars asSpace es 19 value

end NamespacePlan.Xml
