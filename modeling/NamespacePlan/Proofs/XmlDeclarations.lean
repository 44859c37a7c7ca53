import NamespacePlan.Proofs.XmlReaders
import NamespacePlan.Xml.Declaration

/-! How far the declaration of a document is read: up to the first sign that closes a tag. -/
namespace NamespacePlan.Xml

/-- What is taken off has no sign in it that closes a tag. -/
def Unclosed (R : List Char → List Char → Prop) : Prop :=
  ∀ ⦃cs rest⦄, R cs rest → ∃ front, cs = front ++ rest ∧ '>' ∉ front

namespace Unclosed

variable {R S : List Char → List Char → Prop}

theorem comp (first : Unclosed R) (second : Unclosed S) :
    Unclosed fun cs rest => ∃ m, R cs m ∧ S m rest := by
  rintro cs rest ⟨m, left, right⟩
  obtain ⟨f, rfl, free⟩ := first left
  obtain ⟨g, rfl, free'⟩ := second right
  exact ⟨f ++ g, by simp, by simp [free, free']⟩

theorem word {w : List Char} (inner : '>' ∉ w) : Unclosed fun cs rest => behind? w cs = some rest :=
  fun _ _ found => ⟨w, behind?_eq_some_iff.1 found, inner⟩

theorem skipBlanks (cs : List Char) : ∃ front, cs = front ++ skipBlanks cs ∧ '>' ∉ front :=
  ⟨cs.takeWhile isBlank, List.takeWhile_append_dropWhile.symm,
    fun member => nomatch (List.mem_takeWhile_imp member : isBlank '>' = true)⟩

theorem behindBlanks (read : Unclosed R) : Unclosed fun cs rest => R (Xml.skipBlanks cs) rest := by
  intro cs rest here
  obtain ⟨f, parts, free⟩ := Unclosed.skipBlanks cs
  obtain ⟨g, parts', free'⟩ := read here
  exact ⟨f ++ g, by rw [List.append_assoc, ← parts', ← parts], by simp [free, free']⟩

theorem blanks : Unclosed fun cs rest => blanks? cs = some rest := by
  intro cs rest found
  obtain ⟨c, tail, rfl, blank, rfl⟩ := blanks?_eq_some_iff.1 found
  obtain ⟨f, parts, free⟩ := Unclosed.skipBlanks tail
  refine ⟨c :: f, by rw [List.cons_append, ← parts], ?_⟩
  rw [List.mem_cons, not_or]
  refine ⟨?_, free⟩
  rintro rfl
  cases blank

theorem quoted {inside : List Char} (inner : '>' ∉ inside) :
    Unclosed fun cs rest => quoted? cs = some (inside, rest) := by
  intro cs rest found
  obtain ⟨q, quote, _, parts⟩ := quoted?_eq_some_iff.1 found
  refine ⟨_, parts, ?_⟩
  rcases quote with rfl | rfl <;> simp [inner]

end Unclosed

namespace Declaration

theorem setting?_eq_some_iff {word : String} {cs value rest : List Char} :
    setting? word cs = some (value, rest) ↔ ∃ m, behind? word.toList cs = some m ∧
      ∃ k, behind? ['='] (skipBlanks m) = some k ∧ quoted? (skipBlanks k) = some (value, rest) := by
  simp only [setting?, Option.bind_eq_bind, Option.bind_eq_some_iff]

theorem local_setting (word : String) (value : List Char) :
    Local fun cs rest => setting? word cs = some (value, rest) :=
  ((local_behind word.toList).comp ((local_behind ['=']).skipBlanks.comp
    (local_quoted value).skipBlanks)).congr fun _ _ => setting?_eq_some_iff

theorem unclosed_setting {word : String} {value cs rest : List Char} (inner : '>' ∉ word.toList)
    (inner' : '>' ∉ value) (found : setting? word cs = some (value, rest)) :
    ∃ front, cs = front ++ rest ∧ '>' ∉ front :=
  (Unclosed.word inner).comp ((Unclosed.word (w := ['=']) (by decide)).behindBlanks.comp
    (Unclosed.quoted inner').behindBlanks) (setting?_eq_some_iff.1 found)

theorem decided_noWord {word : List Char} (inner : '>' ∉ word) :
    Decided fun cs => ∃ m, blanks? cs = some m ∧ behind? word m = none := by
  rintro u v alike ⟨m, blank, missing⟩
  obtain ⟨m', blank', alike'⟩ := alike.blanks blank
  exact ⟨m', blank', decided_missing inner alike' missing⟩

theorem isPrefixOf_of_setting {word : String} {cs : List Char} {r : List Char × List Char}
    (found : setting? word cs = some r) : word.toList.isPrefixOf cs = true := by
  obtain ⟨m, there, _⟩ := setting?_eq_some_iff.1 found
  rw [behind?_eq_some_iff.1 there]
  exact List.isPrefixOf_iff_prefix.2 (List.prefix_append _ _)

theorem encoding?_eq_some_iff {cs rest : List Char} {e : Option String} :
    encoding? cs = some (e, rest) ↔
      (∃ m, blanks? cs = some m ∧ ∃ name, setting? "encoding" m = some (name, rest) ∧
        (isEncodingName name = true ∧ some (String.ofList name) = e)) ∨
      ((blanks? cs = none ∨ ∃ m, blanks? cs = some m ∧ behind? "encoding".toList m = none) ∧
        rest = cs ∧ e = none) := by
  unfold encoding?
  split
  · next m blank =>
    rw [blank]
    split
    · next word =>
      have there : behind? "encoding".toList m ≠ none := fun h => behind?_eq_none_iff.1 h word
      simp only [Option.bind_eq_bind, Option.bind_eq_some_iff, Prod.exists]
      constructor
      · rintro ⟨name, k, found, read⟩
        split at read
        · next fine =>
          cases read
          exact .inl ⟨m, rfl, name, found, fine, rfl⟩
        · cases read
      · rintro (⟨_, ⟨⟩, name, found, fine, rfl⟩ | ⟨⟨⟨⟩⟩ | ⟨_, ⟨⟩, missing⟩, _⟩)
        · exact ⟨name, rest, found, if_pos fine⟩
        · exact absurd missing there
    · next word =>
      constructor
      · rintro ⟨⟩
        exact .inr ⟨.inr ⟨m, rfl, behind?_eq_none_iff.2 word⟩, rfl, rfl⟩
      · rintro (⟨_, ⟨⟩, name, found, _⟩ | ⟨_, rfl, rfl⟩)
        · exact absurd (isPrefixOf_of_setting found) word
        · rfl
  · next missing =>
    rw [missing]
    constructor
    · rintro ⟨⟩
      exact .inr ⟨.inl rfl, rfl, rfl⟩
    · rintro (⟨_, ⟨⟩, _⟩ | ⟨_, rfl, rfl⟩)
      rfl

theorem standalone?_eq_some_iff {cs rest : List Char} {b : Bool} :
    standalone? cs = some (b, rest) ↔
      (∃ m, blanks? cs = some m ∧
        ((∃ answer, setting? "standalone" m = some (answer, rest) ∧
          (answer = "yes".toList ∧ b = true ∨ answer = "no".toList ∧ b = false)) ∨
        (behind? "standalone".toList m = none ∧ rest = m ∧ b = false))) ∨
      (blanks? cs = none ∧ rest = cs ∧ b = false) := by
  unfold standalone?
  split
  · next m blank =>
    rw [blank]
    split
    · next word =>
      have there : behind? "standalone".toList m ≠ none := fun h => behind?_eq_none_iff.1 h word
      simp only [Option.bind_eq_bind, Option.bind_eq_some_iff, Prod.exists]
      constructor
      · rintro ⟨answer, k, found, read⟩
        split at read
        · next yes =>
          cases read
          exact .inl ⟨m, rfl, .inl ⟨answer, found, .inl ⟨yes, rfl⟩⟩⟩
        · split at read
          · next no =>
            cases read
            exact .inl ⟨m, rfl, .inl ⟨answer, found, .inr ⟨no, rfl⟩⟩⟩
          · cases read
      · rintro (⟨_, ⟨⟩, ⟨answer, found, ⟨rfl, rfl⟩ | ⟨rfl, rfl⟩⟩ | ⟨missing, _⟩⟩ | ⟨⟨⟩, _⟩)
        · exact ⟨_, rest, found, rfl⟩
        · exact ⟨_, rest, found, rfl⟩
        · exact absurd missing there
    · next word =>
      constructor
      · rintro ⟨⟩
        exact .inl ⟨_, rfl, .inr ⟨behind?_eq_none_iff.2 word, rfl, rfl⟩⟩
      · rintro (⟨_, ⟨⟩, ⟨answer, found, _⟩ | ⟨_, rfl, rfl⟩⟩ | ⟨⟨⟩, _⟩)
        · exact absurd (isPrefixOf_of_setting found) word
        · rfl
  · next missing =>
    rw [missing]
    constructor
    · rintro ⟨⟩
      exact .inr ⟨rfl, rfl, rfl⟩
    · rintro (⟨_, ⟨⟩, _⟩ | ⟨_, rfl, rfl⟩)
      rfl

theorem local_encoding (e : Option String) : Local fun cs rest => encoding? cs = some (e, rest) := by
  have named : Local fun cs rest => ∃ m, blanks? cs = some m ∧ ∃ name,
      setting? "encoding" m = some (name, rest) ∧
        (isEncodingName name = true ∧ some (String.ofList name) = e) :=
    local_blanks.comp (.ofExists fun name => (local_setting "encoding" name).also _)
  have unnamed : Decided fun cs => blanks? cs = none ∨
      ∃ m, blanks? cs = some m ∧ behind? "encoding".toList m = none := by
    rintro u v alike (missing | missing)
    · exact .inl (decided_noBlanks alike missing)
    · exact .inr (decided_noWord (by decide) alike missing)
  exact (named.or ((Local.stay.also (e = none)).when unnamed)).congr
    fun _ _ => encoding?_eq_some_iff

theorem local_standalone (b : Bool) : Local fun cs rest => standalone? cs = some (b, rest) := by
  have answered : Local fun m rest => ∃ answer, setting? "standalone" m = some (answer, rest) ∧
      (answer = "yes".toList ∧ b = true ∨ answer = "no".toList ∧ b = false) :=
    .ofExists fun answer => (local_setting "standalone" answer).also _
  exact ((local_blanks.comp (answered.or ((Local.stay.also (b = false)).when
    (decided_missing (by decide))))).or ((Local.stay.also (b = false)).when decided_noBlanks)).congr
      fun _ _ => standalone?_eq_some_iff

/-- A declaration up to the white space in front of the sign that ends it. -/
def Opens (d : Declaration) (cs rest : List Char) : Prop :=
  ∃ a, behind? "<?xml".toList cs = some a ∧ ∃ b, blanks? a = some b ∧
    ∃ version, ∃ c, setting? "version" b = some (version, c) ∧ ∃ e, encoding? c = some (d.encoding, e) ∧
      (standalone? e = some (d.standalone, rest) ∧ isVersion version = true)

theorem read_eq_some_iff {cs rest : List Char} {d : Declaration} :
    read cs = some (d, rest) ↔ ∃ m, Opens d cs m ∧ behind? "?>".toList (skipBlanks m) = some rest := by
  simp only [read, Opens, Option.bind_eq_bind, Option.bind_eq_some_iff, Prod.exists]
  constructor
  · rintro ⟨b, ⟨a, first, blank⟩, version, c, named, read⟩
    split at read
    · cases read
    · next fine =>
      simp only [Option.bind_eq_some_iff, Prod.exists] at read
      obtain ⟨e, k, encoded, alone, m, answered, tail, closed, ⟨⟩⟩ := read
      exact ⟨m, ⟨a, first, b, blank, version, c, named, k, encoded, answered, by simpa using fine⟩, closed⟩
  · rintro ⟨m, ⟨a, first, b, blank, version, c, named, k, encoded, answered, fine⟩, closed⟩
    refine ⟨b, ⟨a, first, blank⟩, version, c, named, ?_⟩
    simp only [fine, Bool.not_true, Bool.false_eq_true, if_false, Option.bind_eq_some_iff, Prod.exists]
    exact ⟨_, k, encoded, _, m, answered, rest, closed, rfl⟩

theorem local_opens (d : Declaration) : Local (Opens d) :=
  (local_behind _).comp (local_blanks.comp (.ofExists fun version => (local_setting _ version).comp
    ((local_encoding _).comp ((local_standalone _).also (isVersion version = true)))))

theorem local_read (d : Declaration) : Local fun cs rest => read cs = some (d, rest) :=
  ((local_opens d).comp (local_behind _).skipBlanks).congr fun _ _ => read_eq_some_iff

theorem not_mem_of_all {p : Char → Bool} {cs : List Char} {c : Char} (all : cs.all p = true)
    (other : p c = false) : c ∉ cs := by
  intro member
  rw [List.all_eq_true.1 all c member] at other
  cases other

theorem unclosed_version {version : List Char} (fine : isVersion version = true) : '>' ∉ version := by
  unfold isVersion at fine
  split at fine
  · next digits =>
    have inner := not_mem_of_all (c := '>') fine rfl
    simp [inner]
  · cases fine

theorem unclosed_encodingName {name : List Char} (fine : isEncodingName name = true) : '>' ∉ name := by
  unfold isEncodingName at fine
  split at fine
  · next c cs =>
    rw [Bool.and_eq_true] at fine
    have inner := not_mem_of_all (c := '>') fine.2 rfl
    rw [List.mem_cons, not_or]
    refine ⟨?_, inner⟩
    rintro rfl
    exact absurd fine.1 (by decide)
  · cases fine

theorem unclosed_nothing : Unclosed fun cs rest => rest = cs :=
  fun cs _ same => ⟨[], same ▸ rfl, by simp⟩

theorem unclosed_encoding (e : Option String) : Unclosed fun cs rest => encoding? cs = some (e, rest) := by
  intro cs rest read
  rcases encoding?_eq_some_iff.1 read with ⟨m, blank, name, found, fine, _⟩ | ⟨_, rfl, _⟩
  · refine Unclosed.blanks.comp (S := fun m rest => setting? "encoding" m = some (name, rest)) ?_
      ⟨m, blank, found⟩
    exact fun _ _ => unclosed_setting (by decide) (unclosed_encodingName fine)
  · exact unclosed_nothing rfl

theorem unclosed_standalone (b : Bool) : Unclosed fun cs rest => standalone? cs = some (b, rest) := by
  intro cs rest read
  rcases standalone?_eq_some_iff.1 read with ⟨m, blank, ⟨answer, found, fine⟩ | ⟨_, rfl, _⟩⟩ | ⟨_, rfl, _⟩
  · refine Unclosed.blanks.comp (S := fun m rest => setting? "standalone" m = some (answer, rest)) ?_
      ⟨m, blank, found⟩
    refine fun _ _ => unclosed_setting (by decide) ?_
    rcases fine with ⟨rfl, _⟩ | ⟨rfl, _⟩ <;> decide
  · exact Unclosed.blanks blank
  · exact unclosed_nothing rfl

theorem unclosed_opens (d : Declaration) : Unclosed (Opens d) := by
  rintro cs rest ⟨a, first, b, blank, version, c, named, k, encoded, answered, fine⟩
  have versioned : Unclosed fun cs rest => setting? "version" cs = some (version, rest) :=
    fun _ _ => unclosed_setting (by decide) (unclosed_version fine)
  exact (Unclosed.word (by decide)).comp (Unclosed.blanks.comp (versioned.comp
    ((unclosed_encoding _).comp (unclosed_standalone _))))
      ⟨a, first, b, blank, c, named, k, encoded, answered⟩

/-- A declaration goes up to the first sign that closes a tag, and is read whatever stands behind that. -/
theorem exists_of_read {cs rest : List Char} {d : Declaration} (found : read cs = some (d, rest)) :
    ∃ front, '>' ∉ front ∧ cs = front ++ '>' :: rest ∧
      ∀ rest', read (front ++ '>' :: rest') = some (d, rest') := by
  obtain ⟨m, opens, closed⟩ := read_eq_some_iff.1 found
  obtain ⟨f, rfl, free⟩ := unclosed_opens d opens
  obtain ⟨f', parts, keeps⟩ := local_opens d opens
  obtain rfl : f = f' := List.append_cancel_right parts
  obtain ⟨g, parts', inner⟩ := Unclosed.skipBlanks m
  obtain ⟨g', parts'', keeps'⟩ := local_skipBlanks (rfl : skipBlanks m = skipBlanks m)
  obtain rfl : g = g' := List.append_cancel_right (parts'.symm.trans parts'')
  rw [behind?_eq_some_iff] at closed
  rw [closed] at parts' keeps'
  refine ⟨f ++ g ++ ['?'], by simp [free, inner], by simp [parts'], fun rest' => ?_⟩
  have alike : Alike ("?>".toList ++ rest) ("?>".toList ++ rest') := .of_closed _ _ (by decide)
  refine read_eq_some_iff.2 ⟨g ++ ("?>".toList ++ rest'), ?_, ?_⟩
  · have again := keeps (g ++ ("?>".toList ++ rest')) (parts' ▸ alike.append g)
    simpa using again
  · rw [keeps' _ alike]
    exact behind?_eq_some_iff.2 rfl

/-- Texts that share a beginning with a sign that closes a tag have the same declaration. -/
theorem read_of_shared {front s : List Char} (closed : '>' ∈ front) {d : Declaration} {rest : List Char}
    (found : read (front ++ s) = some (d, rest)) :
    ∃ r, rest = r ++ s ∧ ∀ t, read (front ++ t) = some (d, r ++ t) := by
  obtain ⟨f, free, parts, keeps⟩ := exists_of_read found
  obtain ⟨g, r, rfl, absent⟩ := List.eq_append_cons_of_mem closed
  have whole : g ++ '>' :: (r ++ s) = f ++ '>' :: rest := by simpa using parts
  obtain rfl : f = g := by
    rw [← takeWhile_until free rest, ← whole, takeWhile_until absent]
  obtain rfl : rest = r ++ s := by simpa using whole.symm
  exact ⟨r, rfl, fun t => by simpa using keeps (r ++ t)⟩

end Declaration

end NamespacePlan.Xml
