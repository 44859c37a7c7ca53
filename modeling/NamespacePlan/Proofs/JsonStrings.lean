import NamespacePlan.Json.Reader
import NamespacePlan.Json.Writer
import NamespacePlan.Proofs.HexDigits

/-! Strings written as JSON and read back. Every character has one escape, which the reader undoes
whatever follows it; a character outside the first plane is two units that the reader joins. -/
namespace NamespacePlan.Json

open Text

/-- No character is half of a surrogate pair. -/
theorem not_surrogate (c : Char) : isHigh c.toNat = false ∧ isLow c.toNat = false := by
  have valid := c.valid
  simp only [UInt32.isValidChar, Nat.isValidChar] at valid
  simp only [isHigh, isLow, Char.toNat, Bool.and_eq_false_iff, decide_eq_false_iff_not]
  omega

/-! One character. -/

theorem unitEscape_eq (n : Nat) : ∃ a b c d, unitEscape n = ['\\', 'u', a, b, c, d] ∧
    hexDigits hexDigit 4 n = [a, b, c, d] :=
  ⟨_, _, _, _, rfl, rfl⟩

/-- A unit that begins no pair is read as it stands. -/
theorem stringBody_unitEscape (start : Nat) {n : Nat} (fits : n < 0x10000)
    (single : isHigh n = false) {rest : List Char} (more : rest ≠ []) :
    stringBody start (unitEscape n ++ rest) =
      stringBody.push (stringBody.single n) (stringBody start rest) := by
  obtain ⟨a, b, c, d, text, digits⟩ := unitEscape_eq n
  have number : hexNumber? [a, b, c, d] = some n :=
    digits ▸ hexNumber?_hexDigits readsBack_hexDigit fits
  have nonempty : rest.isEmpty = false := by simpa using more
  simp only [text, List.cons_append, List.nil_append]
  rw [stringBody.eq_4]
  simp only [nonempty, number, single, Bool.false_and, Bool.false_eq_true, if_false]
  split <;> rfl

theorem stringBody_pair (start : Nat) {high low : Nat} (first : isHigh high = true)
    (second : isLow low = true) {rest : List Char} (more : rest ≠ []) :
    stringBody start (unitEscape high ++ unitEscape low ++ rest) =
      stringBody.push (some (joined high low)) (stringBody start rest) := by
  obtain ⟨a, b, c, d, text, digits⟩ := unitEscape_eq high
  obtain ⟨e, f, g, h, text', digits'⟩ := unitEscape_eq low
  have bounds : high < 16 ^ 4 ∧ low < 16 ^ 4 := by
    simp only [isHigh, isLow, Bool.and_eq_true, decide_eq_true_eq] at first second
    omega
  have number : hexNumber? [a, b, c, d] = some high :=
    digits ▸ hexNumber?_hexDigits readsBack_hexDigit bounds.1
  have number' : hexNumber? [e, f, g, h] = some low :=
    digits' ▸ hexNumber?_hexDigits readsBack_hexDigit bounds.2
  have nonempty : rest.isEmpty = false := by simpa using more
  simp only [text, text', List.cons_append, List.nil_append]
  rw [stringBody.eq_4]
  simp only [List.isEmpty_cons, number, number', first, second, nonempty, Bool.not_false,
    Bool.and_true, if_true, Bool.false_eq_true, if_false]

theorem stringBody_short (start : Nat) {letter c : Char} (known : escaped? letter = some c)
    (rest : List Char) :
    stringBody start ('\\' :: letter :: rest) = stringBody.push (some c) (stringBody start rest) := by
  have other : letter ≠ 'u' := by
    rintro rfl
    cases known
  rw [stringBody.eq_6 start letter rest other, known]

theorem stringBody_shown (start : Nat) {c : Char} (quote : c ≠ '"') (slash : c ≠ '\\')
    (shown : ' ' ≤ c) (rest : List Char) :
    stringBody start (c :: rest) = stringBody.push (some c) (stringBody start rest) := by
  rw [stringBody.eq_7 start c rest quote (fun h => absurd h slash) (fun _ h => absurd h slash)
    (fun _ _ h => absurd h slash), if_neg (Char.not_lt.2 shown)]

theorem joined_units {n : Nat} (least : 0x10000 ≤ n) (c : Char) (code : c.toNat = n) :
    joined (0xD800 + (n - 0x10000) / 0x400) (0xDC00 + (n - 0x10000) % 0x400) = c := by
  have sum : 0x10000 + (0xD800 + (n - 0x10000) / 0x400 - 0xD800) * 0x400 +
      (0xDC00 + (n - 0x10000) % 0x400 - 0xDC00) = n := by omega
  rw [joined, sum, ← code, Char.ofNat_toNat]

theorem units_of_plane {n : Nat} (most : n < 0x110000) (least : 0x10000 ≤ n) :
    isHigh (0xD800 + (n - 0x10000) / 0x400) = true ∧
      isLow (0xDC00 + (n - 0x10000) % 0x400) = true := by
  simp only [isHigh, isLow, Bool.and_eq_true, decide_eq_true_eq]
  omega

/-- The ways in which a character is written. -/
inductive Written (c : Char) : List Char → Prop where
  | short {letter : Char} (known : escaped? letter = some c) (ascii : letter.toNat < 128) :
      Written c ['\\', letter]
  | shown (quote : c ≠ '"') (slash : c ≠ '\\') (first : ' ' ≤ c) (last : c ≤ '~') : Written c [c]
  | unit (small : c.toNat < 0x10000) : Written c (unitEscape c.toNat)
  | pair (large : 0x10000 ≤ c.toNat) :
      Written c (unitEscape (0xD800 + (c.toNat - 0x10000) / 0x400) ++
        unitEscape (0xDC00 + (c.toNat - 0x10000) % 0x400))

theorem escape_written (c : Char) : Written c (escape c) := by
  unfold escape
  split
  case isTrue h => exact .short (by rw [h]; rfl) (by decide)
  split
  case isTrue h => exact .short (by rw [h]; rfl) (by decide)
  split
  case isTrue h => exact .short (by rw [h]; rfl) (by decide)
  split
  case isTrue h => exact .short (by rw [h]; rfl) (by decide)
  split
  case isTrue h => exact .short (by rw [h]; rfl) (by decide)
  split
  case isTrue h => exact .short (by rw [h]; rfl) (by decide)
  split
  case isTrue h => exact .short (by rw [h]; rfl) (by decide)
  split
  case isTrue quote slash _ _ _ _ _ shown => exact .shown quote slash shown.1 shown.2
  split
  case isTrue small => exact .unit small
  case isFalse large => exact .pair (Nat.not_lt.1 large)

/-- The escape of a character is read back as the character. -/
theorem stringBody_escape (start : Nat) (c : Char) {rest : List Char} (more : rest ≠ []) :
    stringBody start (escape c ++ rest) = stringBody.push (some c) (stringBody start rest) := by
  have written := escape_written c
  generalize escape c = text at written ⊢
  cases written with
  | short known _ => exact stringBody_short start known rest
  | shown quote slash first _ => exact stringBody_shown start quote slash first rest
  | unit small =>
    have alone := not_surrogate c
    rw [stringBody_unitEscape start small alone.1 more, stringBody.single, alone.1, alone.2,
      Char.ofNat_toNat]
    rfl
  | pair large =>
    have units := units_of_plane (toNat_lt_limit c) large
    rw [stringBody_pair start units.1 units.2 more, joined_units large c rfl]

/-! A whole string. -/

theorem stringBody_escaped (start : Nat) (cs rest : List Char) :
    stringBody start (cs.flatMap escape ++ '"' :: rest) = .ok (cs.map some, rest) := by
  induction cs with
  | nil => rfl
  | cons c cs ih =>
    rw [List.flatMap_cons, List.append_assoc, stringBody_escape start c (by simp), ih]
    rfl

theorem textOf_map_some (cs : List Char) : textOf (cs.map some) = .text (String.ofList cs) := by
  have whole : (cs.map some).mapM id = some cs := by
    induction cs with
    | nil => rfl
    | cons c cs ih => rw [List.map_cons, List.mapM_cons, ih]; rfl
  rw [textOf, whole]

theorem stringValue_string (s : String) (rest : List Char) :
    stringValue (s.toList.flatMap escape ++ '"' :: rest) = .ok (.text s, rest) := by
  rw [stringValue, stringBody_escaped, Except.map, textOf_map_some, String.ofList_toList]

/-! What is written is ASCII. -/

theorem hexDigit_ascii : ∀ d < 16, (hexDigit d).toNat < 128 := by decide

theorem unitEscape_ascii {n : Nat} {c : Char} (member : c ∈ unitEscape n) : c.toNat < 128 := by
  rcases List.mem_cons.1 member with rfl | member
  · decide
  · rcases List.mem_cons.1 member with rfl | member
    · decide
    · obtain ⟨d, small, rfl⟩ := mem_hexDigits member
      exact hexDigit_ascii d small

theorem escape_ascii (c : Char) : ∀ e ∈ escape c, e.toNat < 128 := by
  have written := escape_written c
  generalize escape c = text at written ⊢
  cases written with
  | @short letter _ ascii =>
    intro e member
    rcases List.mem_cons.1 member with rfl | member
    · decide
    · rwa [List.mem_singleton.1 member]
  | shown _ _ _ last =>
    intro e member
    have below : c.toNat ≤ 126 := last
    rw [List.mem_singleton.1 member]
    omega
  | unit _ => exact fun e member => unitEscape_ascii member
  | pair _ =>
    intro e member
    rcases List.mem_append.1 member with first | second
    · exact unitEscape_ascii first
    · exact unitEscape_ascii second

theorem string_ascii (s : String) : ∀ e ∈ string s, e.toNat < 128 := by
  intro e member
  rcases List.mem_cons.1 member with rfl | member
  · decide
  · rcases List.mem_append.1 member with inside | quote
    · obtain ⟨c, _, h⟩ := List.mem_flatMap.1 inside
      exact escape_ascii c e h
    · rw [List.mem_singleton.1 quote]
      decide

end NamespacePlan.Json
