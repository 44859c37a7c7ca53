import NamespacePlan.Proofs.SubsetReaders
import NamespacePlan.Proofs.XmlDeclarations
import NamespacePlan.Xml.RootTag

/-! How far a document is read: everything in front of the root element and its start tag, up to the sign
that ends the tag. -/
namespace NamespacePlan.Xml.RootTag

/-! Attributes. -/

theorem attribute?_eq_some_iff {name raw cs rest : List Char} :
    attribute? cs = some ((name, raw), rest) ↔ ∃ a, name? cs = some (name, a) ∧
      ∃ b, behind? ['='] (skipBlanks a) = some b ∧ quoted? (skipBlanks b) = some (raw, rest) := by
  simp only [attribute?, Option.bind_eq_bind, Option.bind_eq_some_iff, Prod.exists]
  grind

theorem local_attribute (name raw : List Char) :
    Local fun cs rest => attribute? cs = some ((name, raw), rest) :=
  ((local_name name).comp ((local_behind _).skipBlanks.comp (local_quoted raw).skipBlanks)).congr
    fun _ _ => attribute?_eq_some_iff

/-- The signs that close a tag. -/
def IsClosed (cs : List Char) : Prop := (∃ m, cs = '>' :: m) ∨ ∃ m, cs = '/' :: '>' :: m

theorem decided_isClosed : Decided IsClosed := by
  rintro u v alike (⟨m, rfl⟩ | ⟨m, rfl⟩)
  · obtain ⟨c, s, t, left, rfl, _⟩ := alike.exists_head
    cases left
    exact .inl ⟨t, rfl⟩
  · obtain ⟨c, s, t, left, rfl, further⟩ := alike.exists_head
    cases left
    obtain ⟨d, s, t, left, rfl, _⟩ := (further (by decide)).exists_head
    cases left
    exact .inr ⟨t, rfl⟩

theorem isEnd_iff {cs : List Char} : isEnd cs = true ↔
    IsClosed cs ∨ (cs.head?.all fun c => c < ' ' && !isBlank c) = true := by
  unfold isEnd IsClosed
  split
  · simp
  · next m => simp
  · next m => simp
  · next c m other other' =>
    have opened : c ≠ '>' := other
    have single : ∀ k, c = '/' → m ≠ '>' :: k := other'
    simp only [List.cons.injEq, opened, false_and, exists_false, false_or, List.head?_cons,
      Option.all_some, iff_or_self]
    rintro ⟨k, slash, sign⟩
    exact absurd sign (single k slash)

theorem decided_isEnd (b : Bool) : Decided fun cs => isEnd cs = b := by
  have ends : Decided fun cs => isEnd cs = true := by
    intro u v alike here
    rcases isEnd_iff.1 here with closed | control
    · exact isEnd_iff.2 (.inl (decided_isClosed alike closed))
    · have first := decided_head fun c => (c.all fun c => c < ' ' && !isBlank c) = true
      exact isEnd_iff.2 (.inr (first alike control))
  exact ends.bool b

/-- An attribute that stands in the tag is added to it. -/
def Takes (s : Subset) (t u : RootTag) (cs rest : List Char) : Prop :=
  isEnd cs = false ∧ ∃ name raw, attribute? cs = some ((name, raw), rest) ∧
    ∃ value, valueOf? s t.name name raw = some value ∧ t.add? name value = some u

theorem local_takes (s : Subset) (t u : RootTag) : Local (Takes s t u) :=
  (Local.ofExists fun name => .ofExists fun raw => (local_attribute name raw).also _).when
    (decided_isEnd false)

theorem repeats_attributes (s : Subset) (t' : RootTag) :
    Repeats (fun fuel t cs rest => attributes? s fuel t cs = some (t', rest))
      (fun t cs rest => (isEnd cs = true ∧ (rest = cs ∧ t = t')) ∨
        ∃ m, Takes s t t' cs m ∧ (IsClosed m ∧ rest = m))
      (fun t u cs rest => ∃ m, Takes s t u cs m ∧ blanks? m = some rest) where
  zero _ _ _ := nofun
  succ fuel t cs rest := by
    rw [attributes?]
    unfold Takes
    cases ends : isEnd cs with
    | true => simp [eq_comm, and_comm]
    | false =>
      simp only [Bool.false_eq_true, if_false, Option.bind_eq_bind, Option.bind_eq_some_iff, Prod.exists,
        false_and, false_or, true_and]
      constructor
      · rintro ⟨name, raw, m, first, value, valued, u, added, read⟩
        split at read
        · cases read
          exact .inl ⟨_, ⟨name, raw, first, value, valued, added⟩, .inl ⟨_, rfl⟩, rfl⟩
        · cases read
          exact .inl ⟨_, ⟨name, raw, first, value, valued, added⟩, .inr ⟨_, rfl⟩, rfl⟩
        · obtain ⟨k, blank, read⟩ := Option.bind_eq_some_iff.1 read
          exact .inr ⟨u, k, ⟨m, ⟨name, raw, first, value, valued, added⟩, blank⟩, read⟩
      · rintro (⟨m, ⟨name, raw, first, value, valued, added⟩, ⟨k, rfl⟩ | ⟨k, rfl⟩, rfl⟩ |
          ⟨u, k, ⟨m, ⟨name, raw, first, value, valued, added⟩, blank⟩, read⟩)
        · exact ⟨name, raw, _, first, value, valued, t', added, rfl⟩
        · exact ⟨name, raw, _, first, value, valued, t', added, rfl⟩
        · refine ⟨name, raw, m, first, value, valued, u, added, ?_⟩
          split
          · cases blank
          · cases blank
          · exact Option.bind_eq_some_iff.2 ⟨k, blank, read⟩

theorem local_attributes (s : Subset) (fuel : Nat) (t t' : RootTag) :
    Local fun cs rest => attributes? s fuel t cs = some (t', rest) :=
  (repeats_attributes s t').isLocal
    (fun t => ((Local.stay.also _).when (decided_isEnd true)).or
      ((local_takes s t t').comp (Local.stay.when decided_isClosed)))
    (fun t u => (local_takes s t u).comp local_blanks) fuel t

/-- The fuel of attributes is enough if it is more than the length of the text. -/
theorem attributes?_enough {s : Subset} {fuel more : Nat} {t t' : RootTag} {cs rest : List Char}
    (found : attributes? s fuel t cs = some (t', rest)) (fits : cs.length < more) :
    attributes? s more t cs = some (t', rest) := by
  refine (repeats_attributes s t').enough ?_ 1 (fun _ => Nat.one_pos) found fits
  rintro t u cs k ⟨m, taken, blank⟩
  exact (length_lt_of_blanks blank).trans_le ((local_takes s t u).length_le taken)

theorem read_eq_some_iff {s : Subset} {t : RootTag} {cs rest : List Char} :
    read s cs = some (t, rest) ↔ ∃ name, ∃ m, name? cs = some (name, m) ∧
      ∃ u fuel, attributes? s fuel { name := String.ofList name } (skipBlanks m) = some (u, rest) ∧
        u.withDefaults s = t := by
  simp only [read, Option.bind_eq_bind, Option.bind_eq_some_iff, Prod.exists, Option.some.injEq,
    Prod.mk.injEq]
  refine exists_congr fun name => exists_congr fun m => and_congr_right fun _ => ?_
  constructor
  · rintro ⟨u, _, found, complete, rfl⟩
    exact ⟨u, _, found, complete⟩
  · rintro ⟨u, fuel, found, complete⟩
    exact ⟨u, rest, attributes?_enough found (Nat.lt_succ_of_le (length_skipBlanks_le m)), complete, rfl⟩

theorem local_read (s : Subset) (t : RootTag) : Local fun cs rest => read s cs = some (t, rest) :=
  (Local.ofExists fun name => (local_name name).comp (.ofExists fun u => .ofExists fun fuel =>
    ((local_attributes s fuel _ u).skipBlanks).also _)).congr fun _ _ => read_eq_some_iff

/-! Document types. -/

theorem ownDeclarations?_eq_some_iff {standalone : Bool} {s s' : Subset} {cs rest : List Char} :
    ownDeclarations? standalone s cs = some (s', rest) ↔
      (∃ m, skipBlanks cs = '[' :: m ∧ ∃ k, Subset.declarations? standalone s m = some (s', k) ∧
        behind? ['>'] (skipBlanks k) = some rest) ∨
      (behind? ['>'] (skipBlanks cs) = some rest ∧ s = s') := by
  unfold ownDeclarations?
  split
  · next k there =>
    have opened := behind?_other (by decide : '[' ≠ '>') [] k
    simp only [there, opened, Option.bind_eq_bind, Option.bind_eq_some_iff, Prod.exists]
    grind
  · next k other =>
    have plain : ∀ l, skipBlanks cs ≠ '[' :: l := other
    simp [plain]

theorem local_ownDeclarations (standalone : Bool) (s s' : Subset) :
    Local fun cs rest => ownDeclarations? standalone s cs = some (s', rest) :=
  ((((local_sign '[').comp ((Subset.local_declarations standalone s s').comp
    (local_behind _).skipBlanks)).skipBlanks).or ((local_behind _).skipBlanks.also _)).congr
      fun _ _ => ownDeclarations?_eq_some_iff

theorem documentType?_eq_some_iff {standalone : Bool} {s : Subset} {cs rest : List Char} :
    documentType? standalone cs = some (s, rest) ↔
      ∃ a, blanks? cs = some a ∧ ∃ name, ∃ b, name? a = some (name, b) ∧
        ((∃ m, externalId? true (skipBlanks b) = some m ∧
            ownDeclarations? standalone { entities := { lenient := !standalone } } m = some (s, rest)) ∨
        ((behind? "SYSTEM".toList (skipBlanks b) = none ∧ behind? "PUBLIC".toList (skipBlanks b) = none) ∧
          ownDeclarations? standalone {} (skipBlanks b) = some (s, rest))) := by
  simp only [documentType?, Option.bind_eq_bind, Option.bind_eq_some_iff (x := blanks? cs), Option.bind_assoc]
  refine exists_congr fun a => and_congr_right fun _ => ?_
  simp only [Option.bind_eq_some_iff (x := name? a), Prod.exists]
  refine exists_congr fun name => exists_congr fun b => and_congr_right fun _ => ?_
  cases outside : externalId? true (skipBlanks b) with
  | none =>
    simp only [reduceCtorEq, false_and, exists_false, false_or]
    split
    · next named =>
      refine ⟨fun h => (nomatch h), fun ⟨⟨plain, plain'⟩, _⟩ => ?_⟩
      rw [behind?_eq_none_iff, Bool.not_eq_true] at plain plain'
      rw [plain, plain'] at named
      cases named
    · next unnamed =>
      have plain : behind? "SYSTEM".toList (skipBlanks b) = none ∧
          behind? "PUBLIC".toList (skipBlanks b) = none := by
        rw [behind?_eq_none_iff, behind?_eq_none_iff]
        simpa using unnamed
      exact (and_iff_right plain).symm
  | some m =>
    have placed : ¬(behind? "SYSTEM".toList (skipBlanks b) = none ∧
        behind? "PUBLIC".toList (skipBlanks b) = none) := by
      rintro ⟨missing, missing'⟩
      rcases externalId?_eq_some_iff.1 outside with ⟨k, there, _⟩ | ⟨k, there, _⟩
      · cases missing.symm.trans there
      · cases missing'.symm.trans there
    rw [if_neg (by simp)]
    simp only [placed, false_and, or_false, Option.some.injEq, exists_eq_left']
    rfl

theorem local_documentType (standalone : Bool) (s : Subset) :
    Local fun cs rest => documentType? standalone cs = some (s, rest) :=
  (local_blanks.comp (.ofExists fun name => (local_name name).comp
    ((local_externalId.comp (local_ownDeclarations standalone _ s)).skipBlanks.or
      ((local_ownDeclarations standalone _ s).when decided_noExternalId).skipBlanks))).congr
        fun _ _ => documentType?_eq_some_iff

/-! Documents. -/

/-- A comment, an instruction or the document type in front of a tag. Declarations stand in one document
type at most. -/
def Precedes (standalone : Bool) (subset next : Option Subset) (cs rest : List Char) : Prop :=
  (∃ m, behind? "<!--".toList cs = some m ∧ (commentEnd? m = some rest ∧ subset = next)) ∨
  (∃ m, behind? "<?".toList cs = some m ∧ (instruction? m = some rest ∧ subset = next)) ∨
  ∃ m, behind? "<!DOCTYPE".toList cs = some m ∧
    ∃ s, documentType? standalone m = some (s, rest) ∧ (subset = none ∧ some s = next)

theorem local_precedes (standalone : Bool) (subset next : Option Subset) :
    Local (Precedes standalone subset next) :=
  ((local_behind _).comp (local_commentEnd.also _)).or (((local_behind _).comp (local_instruction.also _)).or
    ((local_behind _).comp (.ofExists fun s => (local_documentType standalone s).also _)))

theorem length_lt_of_precedes {standalone : Bool} {subset next : Option Subset} {cs rest : List Char}
    (here : Precedes standalone subset next cs rest) : rest.length < cs.length := by
  rcases here with ⟨m, word, inner, _⟩ | ⟨m, word, inner, _⟩ | ⟨m, word, s, inner, _⟩
  · exact local_commentEnd.length_lt (by decide) word inner
  · exact local_instruction.length_lt (by decide) word inner
  · exact (local_documentType standalone s).length_lt (by decide) word inner

theorem read_unnamed (s : Subset) {c : Char} (unnamed : isNameStart c = false) (cs : List Char) :
    read s (c :: cs) = none := by
  simp [read, name?, unnamed]

theorem repeats_behindProlog (standalone : Bool) (t : RootTag) :
    Repeats (fun fuel subset cs rest => behindProlog standalone fuel subset cs = some (t, rest))
      (fun subset cs rest => ∃ m, behind? ['<'] (skipBlanks cs) = some m ∧
        read (subset.getD {}) m = some (t, rest))
      (fun subset next cs rest => Precedes standalone subset next (skipBlanks cs) rest) where
  zero _ _ _ := nofun
  succ fuel subset cs rest := by
    conv =>
      lhs
      unfold behindProlog
    dsimp only [Precedes]
    generalize skipBlanks cs = here
    have untagged : ∀ {c w k}, isNameStart c = false → behind? ('<' :: c :: w) here = some k →
        ∀ s, ¬∃ m, behind? ['<'] here = some m ∧ read s m = some (t, rest) := by
      rintro c w k unnamed word s ⟨m, sign, found⟩
      obtain rfl := behind?_eq_some_iff.1 word
      obtain rfl : c :: (w ++ k) = m := (List.cons.inj (behind?_eq_some_iff.1 sign)).2
      cases (read_unnamed s unnamed (w ++ k)).symm.trans found
    cases comment : behind? "<!--".toList here with
    | some m =>
      have last := untagged (by decide) comment
      have second : behind? "<?".toList here = none := behind?_apart ['<'] comment (by decide)
      have third : behind? "<!DOCTYPE".toList here = none := behind?_apart ['<', '!'] comment (by decide)
      rw [second, third]
      simp only [last, Option.bind_eq_bind, Option.bind_eq_some_iff]
      grind
    | none =>
      cases instruction : behind? "<?".toList here with
      | some m =>
        have last := untagged (by decide) instruction
        have third : behind? "<!DOCTYPE".toList here = none := behind?_apart ['<'] instruction (by decide)
        rw [third]
        simp only [last, Option.bind_eq_bind, Option.bind_eq_some_iff]
        grind
      | none =>
        cases doctype : behind? "<!DOCTYPE".toList here with
        | some m =>
          have last := untagged (by decide) doctype
          cases subset <;> simp only [last, Option.bind_eq_bind, Option.bind_eq_some_iff] <;> grind
        | none => simp [Option.bind_eq_some_iff]

theorem local_behindProlog (standalone : Bool) (fuel : Nat) (subset : Option Subset) (t : RootTag) :
    Local fun cs rest => behindProlog standalone fuel subset cs = some (t, rest) :=
  (repeats_behindProlog standalone t).isLocal (fun _ => ((local_behind _).comp (local_read _ t)).skipBlanks)
    (fun subset next => (local_precedes standalone subset next).skipBlanks) fuel subset

/-- The fuel of a document is enough if it is more than the length of its text. -/
theorem behindProlog_enough {standalone : Bool} {fuel more : Nat} {subset : Option Subset} {t : RootTag}
    {cs rest : List Char} (found : behindProlog standalone fuel subset cs = some (t, rest))
    (fits : cs.length < more) : behindProlog standalone more subset cs = some (t, rest) :=
  (repeats_behindProlog standalone t).enough
    (fun step => (length_lt_of_precedes step).trans_le (length_skipBlanks_le _)) 1 (fun _ => Nat.one_pos)
    found fits

theorem decided_begins (b : Bool) : Decided fun cs => Declaration.begins cs = b := by
  have begins_iff : ∀ cs, Declaration.begins cs = true ↔
      ∃ m, behind? "<?xml".toList cs = some m ∧ ∃ k, blanks? m = some k := by
    intro cs
    unfold Declaration.begins
    cases behind? "<?xml".toList cs with
    | none => simp
    | some m => cases m <;> simp [blanks?]
  have ends : Decided fun cs => Declaration.begins cs = true := by
    intro u v alike here
    obtain ⟨m, word, k, blank⟩ := (begins_iff u).1 here
    obtain ⟨m', word', alike'⟩ := alike.behind (by decide) word
    obtain ⟨k', blank', _⟩ := alike'.blanks blank
    exact (begins_iff v).2 ⟨m', word', k', blank'⟩
  exact ends.bool b

theorem scan_eq_some_iff {t : RootTag} {cs rest : List Char} : scan cs = some (t, rest) ↔
    (Declaration.begins cs = true ∧ ∃ d, ∃ m, Declaration.read cs = some (d, m) ∧
      ∃ fuel, behindProlog d.standalone fuel none m = some (t, rest)) ∨
    (Declaration.begins cs = false ∧ ∃ fuel, behindProlog false fuel none cs = some (t, rest)) := by
  have enough : ∀ standalone m, (∃ fuel, behindProlog standalone fuel none m = some (t, rest)) ↔
      behindProlog standalone (m.length + 1) none m = some (t, rest) := fun standalone m =>
    ⟨fun ⟨_, found⟩ => behindProlog_enough found (Nat.lt_succ_self _), fun found => ⟨_, found⟩⟩
  simp only [enough, scan, Option.bind_eq_bind]
  cases Declaration.begins cs <;> simp [Option.bind_eq_some_iff]

/-- The tag of a document and the text in front of it decide about each other: no sign behind the end of
the tag matters. -/
theorem local_scan (t : RootTag) : Local fun cs rest => scan cs = some (t, rest) :=
  (((Local.ofExists fun d => (Declaration.local_read d).comp (.ofExists fun fuel =>
    local_behindProlog d.standalone fuel none t)).when (decided_begins true)).or
      ((Local.ofExists fun fuel => local_behindProlog false fuel none t).when
        (decided_begins false))).congr fun _ _ => scan_eq_some_iff

end NamespacePlan.Xml.RootTag
