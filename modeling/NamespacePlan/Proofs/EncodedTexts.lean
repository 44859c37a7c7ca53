import Mathlib.Data.List.Find
import NamespacePlan.Proofs.Utf8Texts
import NamespacePlan.Proofs.XmlDeclarations
import NamespacePlan.Xml.Encoding

/-! How far the text of a document is decoded: the bytes of a text up to a sign that closes a tag are the
bytes of that text whatever stands behind them, and they decide about the encoding. -/
namespace NamespacePlan.Xml.Encoding

/-- The byte of the sign that closes a tag, in every encoding. -/
def closingByte : UInt8 := 0x3E

/-- Bytes are decoded one character after the other. A fault is decoded as the last character. -/
structure Stepwise (decode : List UInt8 → List Char) : Prop where
  nil_iff : ∀ bs, decode bs = [] ↔ bs = []
  step : ∀ bs c cs, decode bs = c :: cs → (c = undecodable ∧ cs = []) ∨
    ∃ first rest, bs = first ++ rest ∧ decode rest = cs ∧ (c = '>' → closingByte ∈ first) ∧
      ∀ other, decode (first ++ other) = c :: decode other

/-- Bytes that are decoded as a text with a closed tag fall into those of the tag and those behind it. -/
theorem Stepwise.split {decode : List UInt8 → List Char} (stepwise : Stepwise decode) {bs : List UInt8}
    {front behind : List Char} (read : decode bs = front ++ '>' :: behind) :
    ∃ first rest, bs = first ++ rest ∧ closingByte ∈ first ∧ decode rest = behind ∧
      ∀ other, decode (first ++ other) = front ++ '>' :: decode other := by
  induction front generalizing bs with
  | nil =>
    rcases stepwise.step bs _ _ read with ⟨fault, _⟩ | ⟨first, rest, rfl, later, closed, keeps⟩
    · cases fault
    · exact ⟨first, rest, rfl, closed rfl, later, keeps⟩
  | cons c front ih =>
    rcases stepwise.step bs _ _ read with ⟨_, nothing⟩ | ⟨first, rest, rfl, later, _, keeps⟩
    · simp at nothing
    · obtain ⟨more, rest, rfl, closed, behind, keeps'⟩ := ih later
      refine ⟨first ++ more, rest, by simp, List.mem_append_right _ closed, behind, fun other => ?_⟩
      rw [List.append_assoc, keeps, keeps']
      rfl

/-! The encodings. -/

theorem fromUtf8_skip (more bs : List UInt8) :
    fromUtf8 more.length (more ++ bs) = fromUtf8 0 bs := by
  induction more with
  | nil => rfl
  | cons b more ih => exact ih

/-- What a character is written with in UTF-8 is decoded as the character. -/
theorem fromUtf8_encode (c : Char) (bs : List UInt8) :
    fromUtf8 0 (String.utf8EncodeChar c ++ bs) = c :: fromUtf8 0 bs := by
  obtain ⟨b, more, written, next⟩ := Text.Utf8.exists_next c
  rw [written, List.cons_append, fromUtf8, next]
  simp only [Nat.add_sub_cancel, fromUtf8_skip]

theorem fromUtf8_text (cs : List Char) (bs : List UInt8) :
    fromUtf8 0 (cs.flatMap String.utf8EncodeChar ++ bs) = cs ++ fromUtf8 0 bs := by
  induction cs with
  | nil => rfl
  | cons c cs ih => rw [List.flatMap_cons, List.append_assoc, fromUtf8_encode, ih, List.cons_append]

theorem stepwise_utf8 : Stepwise utf8.decode := by
  constructor
  · intro bs
    cases bs with
    | nil => simp [decode, fromUtf8]
    | cons b bs =>
      simp only [decode, fromUtf8, reduceCtorEq, iff_false]
      split <;> simp
  · intro bs c cs read
    cases bs with
    | nil => cases read
    | cons b bs =>
      simp only [decode, fromUtf8] at read
      split at read
      · next d width here =>
        cases read
        obtain ⟨more, rest, rfl, written, rfl⟩ := Text.Utf8.exists_of_next here
        refine .inr ⟨b :: more, rest, rfl, ?_, ?_, fun other => ?_⟩
        · rw [Nat.add_sub_cancel, fromUtf8_skip]
          rfl
        · rintro rfl
          have single : String.utf8EncodeChar '>' = [closingByte] := by decide
          rw [← written, single]
          exact List.mem_singleton_self _
        · rw [← written]
          exact fromUtf8_encode c other
      · cases read
        exact .inl ⟨rfl, rfl⟩

theorem ofNat_eq_close {n : Nat} (valid : n.isValidChar) (same : Char.ofNat n = '>') : n = 0x3E := by
  have value := Text.Utf8.toNat_ofNat_char valid
  rw [same] at value
  exact value.symm

theorem byte_eq_close {b : UInt8} (same : Char.ofNat b.toNat = '>') : b = closingByte := by
  have small := b.toNat_lt
  have value := ofNat_eq_close (Or.inl (by omega)) same
  exact UInt8.toNat_inj.1 value

theorem stepwise_latin1 : Stepwise latin1.decode := by
  constructor
  · intro bs
    simp [decode]
  · intro bs c cs read
    cases bs with
    | nil => cases read
    | cons b bs =>
      cases read
      refine .inr ⟨[b], bs, rfl, rfl, fun closes => ?_, fun other => rfl⟩
      rw [byte_eq_close closes]
      exact List.mem_singleton_self _

theorem stepwise_ascii : Stepwise ascii.decode := by
  constructor
  · intro bs
    cases bs with
    | nil => simp [decode, fromAscii]
    | cons b bs =>
      simp only [decode, fromAscii, reduceCtorEq, iff_false]
      split <;> simp
  · intro bs c cs read
    cases bs with
    | nil => cases read
    | cons b bs =>
      simp only [decode, fromAscii] at read
      split at read
      · next small =>
        cases read
        refine .inr ⟨[b], bs, rfl, rfl, fun closes => ?_, fun other => ?_⟩
        · rw [byte_eq_close closes]
          exact List.mem_singleton_self _
        · simp [decode, fromAscii, small]
      · cases read
        exact .inl ⟨rfl, rfl⟩

theorem unit_eq_close {little : Bool} {a b : UInt8} (same : unit little a b = 0x3E) :
    closingByte ∈ [a, b] := by
  have first := a.toNat_lt
  have second := b.toNat_lt
  have closes : ∀ d : UInt8, d.toNat = 0x3E → d = closingByte := fun d value => UInt8.toNat_inj.1 value
  cases little with
  | true =>
    simp only [unit, if_true] at same
    rw [closes a (by omega)]
    exact List.mem_cons_self
  | false =>
    simp only [unit, Bool.false_eq_true, if_false] at same
    rw [closes b (by omega)]
    exact List.mem_cons_of_mem _ List.mem_cons_self

theorem unit_lt (little : Bool) (a b : UInt8) : unit little a b < 0x10000 := by
  have first := a.toNat_lt
  have second := b.toNat_lt
  unfold unit
  split <;> omega

/-- The second half of a pair, if it stands there, makes a character that is no sign of the markup. -/
theorem fromUtf16_pair (little : Bool) {h : Nat} (high : 0xD800 ≤ h ∧ h ≤ 0xDBFF) (bs : List UInt8) :
    fromUtf16 little (some h) bs = [undecodable] ∨
    ∃ a b rest c, bs = a :: b :: rest ∧ c ≠ '>' ∧
      ∀ other, fromUtf16 little (some h) (a :: b :: other) = c :: fromUtf16 little none other := by
  match bs with
  | [] => exact .inl rfl
  | [_] => exact .inl rfl
  | a :: b :: rest =>
    by_cases low : 0xDC00 ≤ unit little a b ∧ unit little a b ≤ 0xDFFF
    · refine .inr ⟨a, b, rest, _, rfl, fun closes => ?_, fun other => by rw [fromUtf16]; exact if_pos low⟩
      have value := ofNat_eq_close (Or.inr (by omega)) closes
      omega
    · refine .inl ?_
      rw [fromUtf16]
      exact if_neg low

theorem stepwise_utf16 (little : Bool) : Stepwise (utf16 little).decode := by
  constructor
  · intro bs
    match bs with
    | [] => simp [decode, fromUtf16]
    | [_] => simp [decode, fromUtf16]
    | a :: b :: rest =>
      simp only [decode, fromUtf16, reduceCtorEq, iff_false]
      split
      · next high =>
        rcases fromUtf16_pair little high rest with fault | ⟨d, e, rest, c, rfl, _, keeps⟩
        · simp [fault]
        · simp [keeps]
      · split <;> simp
  · intro bs c cs read
    match bs with
    | [] => cases read
    | [_] =>
      cases read
      exact .inl ⟨rfl, rfl⟩
    | a :: b :: rest =>
      simp only [decode] at read ⊢
      rw [fromUtf16] at read
      split at read
      · next high =>
        rcases fromUtf16_pair little high rest with fault | ⟨d, e, rest, f, rfl, plain, keeps⟩
        · rw [fault] at read
          cases read
          exact .inl ⟨rfl, rfl⟩
        · rw [keeps] at read
          cases read
          refine .inr ⟨[a, b, d, e], rest, rfl, rfl, fun closes => absurd closes plain, fun other => ?_⟩
          rw [List.cons_append, List.cons_append, fromUtf16, if_pos high]
          exact keeps other
      · next high =>
        split at read
        · cases read
          exact .inl ⟨rfl, rfl⟩
        · next low =>
          cases read
          have bound := unit_lt little a b
          have valid : (unit little a b).isValidChar := by
            unfold Nat.isValidChar
            omega
          refine .inr ⟨[a, b], rest, rfl, rfl, fun closes => unit_eq_close (ofNat_eq_close valid closes),
            fun other => ?_⟩
          rw [List.cons_append, List.cons_append, fromUtf16, if_neg high, if_neg low]
          rfl

theorem stepwise (e : Encoding) : Stepwise e.decode := by
  cases e with
  | utf8 => exact stepwise_utf8
  | utf16 little => exact stepwise_utf16 little
  | latin1 => exact stepwise_latin1
  | ascii => exact stepwise_ascii

/-! Line ends. -/

theorem feedless {first rest other : List Char}
    (single : ∀ cs, first ++ '>' :: rest = '\n' :: cs → False) :
    ∀ cs, first ++ '>' :: other = '\n' :: cs → False := by
  intro cs feed
  cases first with
  | nil => cases feed
  | cons c first =>
    obtain ⟨rfl, _⟩ := List.cons.inj feed
    exact single _ rfl

theorem plainLines_split {raw front behind : List Char}
    (read : Text.plainLines raw = front ++ '>' :: behind) :
    ∃ first rest, raw = first ++ '>' :: rest ∧ Text.plainLines rest = behind ∧
      ∀ other, Text.plainLines (first ++ '>' :: other) = front ++ '>' :: Text.plainLines other := by
  induction raw using Text.plainLines.induct generalizing front with
  | case1 cs ih =>
    rw [Text.plainLines] at read
    cases front with
    | nil => cases read
    | cons c front =>
      obtain ⟨rfl, later⟩ := List.cons.inj read
      obtain ⟨first, rest, rfl, tail, keeps⟩ := ih later
      exact ⟨'\r' :: '\n' :: first, rest, rfl, tail, fun other => congrArg ('\n' :: ·) (keeps other)⟩
  | case2 cs single ih =>
    rw [Text.plainLines] at read
    cases front with
    | nil => cases read
    | cons c front =>
      obtain ⟨rfl, later⟩ := List.cons.inj read
      obtain ⟨first, rest, rfl, tail, keeps⟩ := ih later
      refine ⟨'\r' :: first, rest, rfl, tail, fun other => ?_⟩
      rw [List.cons_append, Text.plainLines, keeps]
      · rfl
      · exact feedless single
    · exact single
  | case3 c cs single plain ih =>
    rw [Text.plainLines] at read
    · cases front with
      | nil =>
        obtain ⟨rfl, later⟩ := List.cons.inj read
        exact ⟨[], cs, rfl, later, fun other => rfl⟩
      | cons d front =>
        obtain ⟨rfl, later⟩ := List.cons.inj read
        obtain ⟨first, rest, rfl, tail, keeps⟩ := ih later
        refine ⟨c :: first, rest, rfl, tail, fun behind => ?_⟩
        rw [List.cons_append, Text.plainLines, keeps]
        · rfl
        · exact fun _ here => (plain here).elim
        · exact plain
    · exact single
    · exact plain
  | case4 => simp [Text.plainLines] at read

theorem plainLines_append {cs : List Char} (plain : '\r' ∉ cs) (rest : List Char) :
    Text.plainLines (cs ++ rest) = cs ++ Text.plainLines rest := by
  induction cs with
  | nil => rfl
  | cons c cs ih =>
    rw [List.mem_cons, not_or] at plain
    rw [List.cons_append, Text.plainLines, ih plain.2, List.cons_append]
    · exact fun _ same => absurd same.symm plain.1
    · exact fun same => absurd same.symm plain.1

/-! The text of a document, and its encoding. -/

/-- A text without carriage returns is read as it was written in UTF-8. -/
theorem text_utf8 {cs : List Char} (plain : '\r' ∉ cs) (bs : List UInt8) :
    utf8.text ((String.ofList cs).toUTF8.toList ++ bs) = cs ++ utf8.text bs := by
  rw [Text.Utf8.toList_toUTF8, String.toList_ofList, text, decode, fromUtf8_text,
    plainLines_append plain]
  rfl

theorem text_eq_nil_iff {e : Encoding} {bs : List UInt8} : e.text bs = [] ↔ bs = [] := by
  rw [← e.stepwise.nil_iff, text]
  constructor
  · intro empty
    unfold Text.plainLines at empty
    split at empty
    · cases empty
    · cases empty
    · cases empty
    · next nothing => exact nothing
  · intro empty
    rw [empty]
    rfl

theorem text_split {e : Encoding} {bs : List UInt8} {front behind : List Char}
    (read : e.text bs = front ++ '>' :: behind) : ∃ first rest, bs = first ++ rest ∧
      closingByte ∈ first ∧ e.text rest = behind ∧
        ∀ other, e.text (first ++ other) = front ++ '>' :: e.text other := by
  obtain ⟨raw, left, decoded, later, keeps⟩ := plainLines_split read
  obtain ⟨first, rest, rfl, closed, rfl, keeps'⟩ := e.stepwise.split decoded
  refine ⟨first, rest, rfl, closed, later, fun other => ?_⟩
  rw [text, keeps', keeps]
  rfl

theorem eq_of_text {e : Encoding} {first other : List UInt8} {front : List Char}
    (own : e.text first = front ++ '>' :: []) (its : e.text other = front ++ '>' :: [])
    (begins : first <+: other) : first = other := by
  obtain ⟨inner, rest, rfl, _, nothing, keeps⟩ := text_split own
  obtain rfl := text_eq_nil_iff.1 nothing
  obtain ⟨more, rfl⟩ := begins
  rw [List.append_nil, keeps] at its
  have empty : e.text more = [] := (List.cons.inj (List.append_cancel_left its)).2
  rw [text_eq_nil_iff.1 empty, List.append_nil, List.append_nil]

theorem isPrefixOf_of_shared {first : List UInt8} (closed : closingByte ∈ first) {w : List UInt8}
    (inner : closingByte ∉ w) (s t : List UInt8) :
    w.isPrefixOf (first ++ s) = w.isPrefixOf (first ++ t) := by
  induction first generalizing w with
  | nil => cases closed
  | cons b first ih =>
    cases w with
    | nil => rfl
    | cons c w =>
      rw [List.mem_cons, not_or] at inner
      rw [List.cons_append, List.cons_append, List.isPrefixOf, List.isPrefixOf]
      by_cases same : c = b
      · rw [ih ((List.mem_cons.1 closed).resolve_left (same ▸ inner.1)) inner.2]
      · rw [beq_eq_false_iff_ne.2 same, Bool.false_and, Bool.false_and]

theorem marked?_of_shared {first : List UInt8} (closed : closingByte ∈ first) (s t : List UInt8) :
    marked? (first ++ s) = marked? (first ++ t) := by
  have inner : ∀ m ∈ marks, closingByte ∉ m.1 := by decide
  have same : ∀ m ∈ marks, m.1.isPrefixOf (first ++ s) = m.1.isPrefixOf (first ++ t) :=
    fun m listed => isPrefixOf_of_shared closed (inner m listed) s t
  unfold marked?
  rw [List.find?_congr same]

theorem declared?_of_shared {first : List UInt8} (closed : closingByte ∈ first) (s t : List UInt8) :
    declared? (first ++ s) = declared? (first ++ t) := by
  have sign : '>' ∈ latin1.decode first := List.mem_map.2 ⟨closingByte, closed, rfl⟩
  have parts : ∀ bs, latin1.decode (first ++ bs) = latin1.decode first ++ latin1.decode bs := by
    simp [decode]
  have missing : Declaration.read (latin1.decode first ++ latin1.decode s) = none →
      Declaration.read (latin1.decode first ++ latin1.decode t) = none := by
    intro here
    cases there : Declaration.read (latin1.decode first ++ latin1.decode t) with
    | none => rfl
    | some r =>
      obtain ⟨_, _, keeps⟩ := Declaration.read_of_shared sign there
      cases here.symm.trans (keeps _)
  unfold declared?
  rw [parts, parts]
  cases here : Declaration.read (latin1.decode first ++ latin1.decode s) with
  | none => rw [missing here]
  | some r =>
    obtain ⟨_, _, keeps⟩ := Declaration.read_of_shared sign here
    rw [keeps]

/-- Bytes with a closed tag tell the encoding, whatever stands behind them. -/
theorem of?_of_shared {first : List UInt8} (closed : closingByte ∈ first) (s t : List UInt8) :
    of? (first ++ s) = of? (first ++ t) := by
  rw [of?, of?, marked?_of_shared closed s t, declared?_of_shared closed s t]

/-- Bytes that begin with the tag of an element are those of UTF-8. -/
theorem of?_of_bare {b : UInt8} (visible : b ≠ 0) (other : b ≠ 0x3F) (rest : List UInt8) :
    of? (0x3C :: b :: rest) = some (utf8, 0) := by
  have unmarked : marked? (0x3C :: b :: rest) = none := by
    simp [marked?, marks, List.isPrefixOf, visible.symm]
  have bare : behind? "<?xml".toList (latin1.decode (0x3C :: b :: rest)) = none := by
    cases found : behind? "<?xml".toList (latin1.decode (0x3C :: b :: rest)) with
    | none => rfl
    | some m =>
      have parts := behind?_eq_some_iff.1 found
      simp only [decode, List.map_cons] at parts
      have second : Char.ofNat b.toNat = '?' := (List.cons.inj (List.cons.inj parts).2).1
      have small := b.toNat_lt
      have value := Text.Utf8.toNat_ofNat_char (Or.inl (by omega) : b.toNat.isValidChar)
      rw [second] at value
      exact absurd (UInt8.toNat_inj.1 value.symm) other
  have undeclared : Declaration.read (latin1.decode (0x3C :: b :: rest)) = none := by
    simp only [Declaration.read, bare]
    rfl
  rw [of?, unmarked, declared?, undeclared]
  rfl

end NamespacePlan.Xml.Encoding
