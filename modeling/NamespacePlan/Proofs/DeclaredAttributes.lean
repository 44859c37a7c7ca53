import NamespacePlan.Proofs.XmlReaders
import NamespacePlan.Xml.Subset

/-! How far the declarations of entities and attributes are read: each is read off its own text. How much
fuel there is does not matter as long as it lasts for that text. -/
namespace NamespacePlan.Xml.Subset

/-! Entities. -/

theorem quoted?_of_externalId {cs : List Char} {rest : List Char} {strict : Bool}
    (found : externalId? strict cs = some rest) : quoted? cs = none := by
  cases quotes : quoted? cs with
  | none => rfl
  | some r =>
    obtain ⟨q, quote, _, rfl⟩ := quoted?_eq_some_iff.1 quotes
    rcases quote with rfl | rfl <;> simp [externalId?, behind?] at found

/-- The notation of data behind the place of an entity. -/
def HasNotation (cs rest : List Char) : Prop :=
  ∃ a, blanks? cs = some a ∧ ∃ b, behind? "NDATA".toList a = some b ∧
    ∃ c, blanks? b = some c ∧ ∃ name, name? c = some (name, rest)

theorem entityValue?_eq_some_iff {parameter : Bool} {cs rest : List Char} {e : Entity} :
    entityValue? parameter cs = some (e, rest) ↔
      (∃ raw, quoted? cs = some (raw, rest) ∧ (entityText? raw.length raw).map .internal = some e) ∨
      ∃ m, externalId? true cs = some m ∧
        (((parameter = false ∧ .external = e) ∧ HasNotation m rest) ∨
        ((parameter = true ∨ blanks? m = none ∨
            ∃ k, blanks? m = some k ∧ behind? "NDATA".toList k = none) ∧
          (rest = m ∧ .external = e))) := by
  unfold entityValue? HasNotation
  generalize "NDATA".toList = word
  split
  · next raw tail quotes =>
    have inside : externalId? true cs = none := by
      cases found : externalId? true cs with
      | none => rfl
      | some m => cases quotes.symm.trans (quoted?_of_externalId found)
    rw [quotes, inside]
    constructor
    · intro read
      obtain ⟨t, text, ⟨⟩⟩ := Option.map_eq_some_iff.1 read
      exact .inl ⟨raw, rfl, Option.map_eq_some_iff.2 ⟨t, text, rfl⟩⟩
    · rintro (⟨_, ⟨⟩, read⟩ | ⟨_, ⟨⟩, _⟩)
      obtain ⟨t, text, rfl⟩ := Option.map_eq_some_iff.1 read
      exact Option.map_eq_some_iff.2 ⟨t, text, rfl⟩
  · next missing =>
    simp only [missing, reduceCtorEq, false_and, exists_false, false_or, Option.bind_eq_bind,
      Option.bind_eq_some_iff]
    refine exists_congr fun m => and_congr_right fun _ => ?_
    cases parameter with
    | true =>
      constructor
      · rintro ⟨⟩
        exact .inr ⟨.inl rfl, rfl, rfl⟩
      · rintro (⟨⟨⟨⟩, _⟩, _⟩ | ⟨_, rfl, rfl⟩)
        rfl
    | false =>
      cases data : (blanks? m).bind (behind? word) with
      | none =>
        constructor
        · rintro ⟨⟩
          refine .inr ⟨.inr ?_, rfl, rfl⟩
          cases blank : blanks? rest with
          | none => exact .inl rfl
          | some k =>
            rw [blank] at data
            exact .inr ⟨k, rfl, data⟩
        · rintro (⟨_, k, blank, l, there, _⟩ | ⟨_, rfl, rfl⟩)
          · simp [blank, there] at data
          · rfl
      | some l =>
        obtain ⟨k, blank, there⟩ := Option.bind_eq_some_iff.1 data
        constructor
        · intro read
          obtain ⟨⟨name, rest⟩, named, ⟨⟩⟩ := Option.map_eq_some_iff.1 read
          obtain ⟨j, blank', named⟩ := Option.bind_eq_some_iff.1 named
          exact .inl ⟨⟨rfl, rfl⟩, k, blank, l, there, j, blank', name, named⟩
        · rintro (⟨⟨_, rfl⟩, _, blank', _, there', j, blank'', name, named⟩ |
            ⟨own | absent | ⟨_, blank', absent⟩, _⟩)
          · cases blank.symm.trans blank'
            cases there.symm.trans there'
            exact Option.map_eq_some_iff.2 ⟨(name, rest), Option.bind_eq_some_iff.2 ⟨j, blank'', named⟩, rfl⟩
          · cases own
          · cases blank.symm.trans absent
          · cases blank.symm.trans blank'
            cases there.symm.trans absent

theorem local_entityValue (parameter : Bool) (e : Entity) :
    Local fun cs rest => entityValue? parameter cs = some (e, rest) := by
  have dated : Local HasNotation := local_blanks.comp ((local_behind _).comp (local_blanks.comp
    (.ofExists local_name)))
  have undated : Decided fun m => parameter = true ∨ blanks? m = none ∨
      ∃ k, blanks? m = some k ∧ behind? "NDATA".toList k = none := by
    rintro u v alike (own | missing | ⟨k, blank, missing⟩)
    · exact .inl own
    · exact .inr (.inl (decided_noBlanks alike missing))
    · obtain ⟨k', blank', alike'⟩ := alike.blanks blank
      exact .inr (.inr ⟨k', blank', decided_missing (by decide) alike' missing⟩)
  exact ((Local.ofExists fun raw => (local_quoted raw).also _).or (local_externalId.comp
    ((dated.given _).or ((Local.stay.also _).when undated)))).congr
      fun _ _ => entityValue?_eq_some_iff

/-- The sign in front of the name of an entity that stands for declarations. -/
def IsMarked (parameter : Bool) (cs rest : List Char) : Prop :=
  (∃ m, behind? ['%'] cs = some m ∧ (blanks? m = some rest ∧ parameter = true)) ∨
    (behind? ['%'] cs = none ∧ (rest = cs ∧ parameter = false))

theorem entityDeclaration?_eq_some_iff {s s' : Subset} {cs rest : List Char} :
    s.entityDeclaration? cs = some (s', rest) ↔
      ∃ a, blanks? cs = some a ∧ ∃ parameter b, IsMarked parameter a b ∧
        ∃ name c, name? b = some (name, c) ∧ ∃ d, blanks? c = some d ∧
          ∃ e f, entityValue? parameter d = some (e, f) ∧ (behind? ['>'] (skipBlanks f) = some rest ∧
            s.addEntity parameter (String.ofList name) e = s') := by
  have tail : ∀ parameter b,
      ((name? b).bind fun n => ((blanks? n.2).bind (entityValue? parameter)).bind fun v =>
        (behind? ['>'] (skipBlanks v.2)).bind fun rest =>
          some (s.addEntity parameter (String.ofList n.1) v.1, rest)) = some (s', rest) ↔
      ∃ name c, name? b = some (name, c) ∧ ∃ d, blanks? c = some d ∧
        ∃ e f, entityValue? parameter d = some (e, f) ∧ (behind? ['>'] (skipBlanks f) = some rest ∧
          s.addEntity parameter (String.ofList name) e = s') := by
    intro parameter b
    simp only [Option.bind_eq_some_iff, Prod.exists, Option.some.injEq, Prod.mk.injEq]
    grind
  simp only [entityDeclaration?, Option.bind_eq_bind, Option.bind_eq_some_iff (x := blanks? cs)]
  refine exists_congr fun a => and_congr_right fun _ => ?_
  unfold IsMarked
  cases sign : behind? ['%'] a with
  | none =>
    simp only [Option.bind_some, tail]
    simp
  | some m =>
    cases blank : blanks? m with
    | none => simp [blank]
    | some b => simp [blank, tail]

theorem local_isMarked (parameter : Bool) : Local (IsMarked parameter) :=
  ((local_behind _).comp (local_blanks.also _)).or
    ((Local.stay.also _).when (decided_missing (by decide)))

theorem local_entityDeclaration (s s' : Subset) :
    Local fun cs rest => s.entityDeclaration? cs = some (s', rest) :=
  (local_blanks.comp (.ofExists fun parameter => (local_isMarked parameter).comp
    (.ofExists fun name => (local_name name).comp (local_blanks.comp (.ofExists fun e =>
      (local_entityValue parameter e).comp ((local_behind _).skipBlanks.also _)))))).congr
        fun _ _ => entityDeclaration?_eq_some_iff

/-! Choices. -/

section Choice

variable {token : List Char → Option (List Char × List Char)}

/-- A value of a choice, and the sign behind it. -/
def Offers (token : List Char → Option (List Char × List Char)) (sign : Char) (cs rest : List Char) : Prop :=
  ∃ m, (∃ x, token (skipBlanks cs) = some (x, m)) ∧ skipBlanks m = sign :: rest

theorem local_offers (reads : ∀ x, Local fun cs rest => token cs = some (x, rest)) (sign : Char) :
    Local (Offers token sign) :=
  (Local.ofExists fun x => (reads x).skipBlanks).comp (local_sign sign).skipBlanks

theorem repeats_choice : Repeats (fun fuel (_ : Unit) cs rest => choice? token fuel cs = some rest)
    (fun _ => Offers token ')') (fun _ _ => Offers token '|') where
  zero _ _ _ := nofun
  succ fuel _ cs rest := by
    simp only [choice?, Offers, Option.bind_eq_bind, Option.bind_eq_some_iff, Prod.exists]
    constructor
    · rintro ⟨x, m, first, read⟩
      split at read
      · next tail there => exact .inr ⟨(), tail, ⟨m, ⟨x, first⟩, there⟩, read⟩
      · next tail there =>
        cases read
        exact .inl ⟨m, ⟨x, first⟩, there⟩
      · cases read
    · rintro (⟨m, ⟨x, first⟩, there⟩ | ⟨_, tail, ⟨m, ⟨x, first⟩, there⟩, read⟩)
      · exact ⟨x, m, first, by simp [there]⟩
      · exact ⟨x, m, first, by simpa [there] using read⟩

theorem local_choice (reads : ∀ x, Local fun cs rest => token cs = some (x, rest)) (fuel : Nat) :
    Local fun cs rest => choice? token fuel cs = some rest :=
  repeats_choice.isLocal (fun _ => local_offers reads ')') (fun _ _ => local_offers reads '|') fuel ()

/-- The fuel of a choice is enough if it is the length of the text. -/
theorem choice?_iff (reads : ∀ x, Local fun cs rest => token cs = some (x, rest))
    (nothing : token [] = none) {fuel : Nat} {cs rest : List Char} (fits : cs.length ≤ fuel) :
    choice? token fuel cs = some rest ↔ ∃ fuel, choice? token fuel cs = some rest := by
  refine ⟨fun found => ⟨fuel, found⟩, fun ⟨_, found⟩ =>
    repeats_choice.enough (s := ()) ?_ 0 ?_ found fits⟩
  · rintro _ _ cs tail ⟨m, ⟨x, first⟩, sign⟩
    have left := (reads x).skipBlanks.length_le first
    have left' := length_skipBlanks_le m
    rw [sign, List.length_cons] at left'
    omega
  · rintro _ _ ⟨m, ⟨x, first⟩, _⟩
    cases nothing.symm.trans first

end Choice

/-! Attributes. -/

/-- A choice of values in brackets. -/
def Chooses (token : List Char → Option (List Char × List Char)) (cs rest : List Char) : Prop :=
  ∃ m, behind? ['('] cs = some m ∧ ∃ fuel, choice? token fuel m = some rest

theorem local_chooses {token : List Char → Option (List Char × List Char)}
    (reads : ∀ x, Local fun cs rest => token cs = some (x, rest)) : Local (Chooses token) :=
  (local_behind _).comp (.ofExists fun fuel => local_choice reads fuel)

theorem attributeType?_eq_some_iff {words : Bool} {cs rest : List Char} :
    attributeType? cs = some (words, rest) ↔
      (behind? "CDATA".toList cs = some rest ∧ words = false) ∨
      (behind? "CDATA".toList cs = none ∧
        (((typeWords.findSome? fun w => behind? w.toList cs) = some rest ∧ words = true) ∨
        ((typeWords.findSome? fun w => behind? w.toList cs) = none ∧
          ((∃ m, behind? "NOTATION".toList cs = some m ∧ ∃ k, blanks? m = some k ∧
            (Chooses name? k rest ∧ words = true)) ∨
          (behind? "NOTATION".toList cs = none ∧ (Chooses nameToken? cs rest ∧ words = true)))))) := by
  unfold attributeType? Chooses
  cases behind? "CDATA".toList cs with
  | some m => simp [eq_comm, and_comm]
  | none =>
    cases typeWords.findSome? fun w => behind? w.toList cs with
    | some m => simp [eq_comm, and_comm]
    | none =>
      cases behind? "NOTATION".toList cs with
      | some m =>
        cases blank : blanks? m with
        | none => simp [blank]
        | some k =>
          cases bracket : behind? ['('] k with
          | none => simp [blank, bracket]
          | some l =>
            have enough : l.length ≤ m.length := by
              have shorter := local_blanks.length_le blank
              have shorter' := (local_behind _).length_le bracket
              omega
            simp [blank, bracket, ← choice?_iff local_name rfl enough]
      | none =>
        cases bracket : behind? ['('] cs with
        | none => simp
        | some l =>
          simp [← choice?_iff local_nameToken rfl ((local_behind _).length_le bracket)]

theorem unclosed_typeWords : ∀ w ∈ typeWords, '>' ∉ w.toList := by decide

theorem local_firstWord {ws : List String} (inner : ∀ w ∈ ws, '>' ∉ w.toList) :
    Local fun cs rest => (ws.findSome? fun w => behind? w.toList cs) = some rest := by
  induction ws with
  | nil => exact fun _ _ none => nomatch none
  | cons w ws ih =>
    have own := inner w List.mem_cons_self
    have later := ih fun x listed => inner x (List.mem_cons_of_mem w listed)
    refine ((local_behind w.toList).or (later.when (decided_missing own))).congr fun cs rest => ?_
    rw [List.findSome?_cons]
    cases behind? w.toList cs <;> simp

theorem decided_noWord {ws : List String} (inner : ∀ w ∈ ws, '>' ∉ w.toList) :
    Decided fun cs => (ws.findSome? fun w => behind? w.toList cs) = none := by
  intro u v alike missing
  rw [List.findSome?_eq_none_iff] at missing ⊢
  exact fun w listed => decided_missing (inner w listed) alike (missing w listed)

theorem local_attributeType (words : Bool) :
    Local fun cs rest => attributeType? cs = some (words, rest) :=
  (((local_behind _).also _).or ((((local_firstWord unclosed_typeWords).also _).or
    ((((local_behind _).comp (local_blanks.comp ((local_chooses local_name).also _))).or
      (((local_chooses local_nameToken).also _).when (decided_missing (by decide)))).when
        (decided_noWord unclosed_typeWords))).when (decided_missing (by decide)))).congr
          fun _ _ => attributeType?_eq_some_iff

theorem attributeDefault?_eq_some_iff {cs rest : List Char} {value : Option (List Char)} :
    attributeDefault? cs = some (value, rest) ↔
      ((behind? "#REQUIRED".toList cs = some rest ∨
          (behind? "#REQUIRED".toList cs = none ∧ behind? "#IMPLIED".toList cs = some rest)) ∧
        value = none) ∨
      (behind? "#REQUIRED".toList cs = none ∧ (behind? "#IMPLIED".toList cs = none ∧ ∃ raw,
        (((∃ m, behind? "#FIXED".toList cs = some m ∧ ∃ k, blanks? m = some k ∧
            quoted? k = some (raw, rest)) ∨
          (behind? "#FIXED".toList cs = none ∧ quoted? cs = some (raw, rest))) ∧
        some raw = value))) := by
  unfold attributeDefault?
  cases behind? "#REQUIRED".toList cs with
  | some m => simp [eq_comm, and_comm]
  | none =>
    cases behind? "#IMPLIED".toList cs with
    | some m => simp [eq_comm, and_comm]
    | none =>
      cases behind? "#FIXED".toList cs with
      | some m =>
        cases blank : blanks? m with
        | none => simp [blank]
        | some k => simp [blank]
      | none => simp

theorem local_attributeDefault (value : Option (List Char)) :
    Local fun cs rest => attributeDefault? cs = some (value, rest) :=
  ((((local_behind _).or ((local_behind _).when (decided_missing (by decide)))).also _).or
    (((Local.ofExists fun raw => (((local_behind _).comp (local_blanks.comp (local_quoted raw))).or
      ((local_quoted raw).when (decided_missing (by decide)))).also _).when
        (decided_missing (by decide))).when (decided_missing (by decide)))).congr
          fun _ _ => attributeDefault?_eq_some_iff

/-- An attribute is declared: its name, its type and its default. -/
def Declares (element : String) (s t : Subset) (cs rest : List Char) : Prop :=
  ∃ name, ∃ a, name? cs = some (name, a) ∧
    ∃ words, ∃ c, (∃ b, blanks? a = some b ∧ attributeType? b = some (words, c)) ∧
      ∃ raw, (∃ d, blanks? c = some d ∧ attributeDefault? d = some (raw, rest)) ∧
        ∃ value, s.defaultValue? words raw = some value ∧
          s.addAttribute ⟨element, String.ofList name, words, value⟩ = t

theorem local_declares (element : String) (s t : Subset) : Local (Declares element s t) :=
  .ofExists fun name => (local_name name).comp (.ofExists fun words =>
    (local_blanks.comp (local_attributeType words)).comp (.ofExists fun raw =>
      (local_blanks.comp (local_attributeDefault raw)).also _))

theorem repeats_attributes (element : String) (s' : Subset) :
    Repeats (fun fuel s cs rest => attributes? element fuel s cs = some (s', rest))
      (fun s cs rest => (cs = '>' :: rest ∧ s = s') ∨ ∃ m, Declares element s s' cs m ∧ m = '>' :: rest)
      (fun s t cs rest => ∃ m, Declares element s t cs m ∧ blanks? m = some rest) where
  zero _ _ _ := nofun
  succ fuel s cs rest := by
    simp only [attributes?, Declares]
    split
    · next tail =>
      have nameless : name? ('>' :: tail) = none := rfl
      simp [nameless, and_comm]
    · next other =>
      have opened : ¬(cs = '>' :: rest ∧ s = s') := fun closed => other _ closed.1
      simp only [opened, false_or, Option.bind_eq_bind, Option.bind_eq_some_iff, Prod.exists]
      constructor
      · rintro ⟨name, a, named, words, c, typed, raw, m, given, value, valued, read⟩
        split at read
        · cases read
          exact .inl ⟨_, ⟨name, a, named, words, c, typed, raw, given, value, valued, rfl⟩, rfl⟩
        · obtain ⟨k, blank, read⟩ := Option.bind_eq_some_iff.1 read
          exact .inr ⟨_, k, ⟨m, ⟨name, a, named, words, c, typed, raw, given, value, valued, rfl⟩, blank⟩,
            read⟩
      · rintro (⟨m, ⟨name, a, named, words, c, typed, raw, given, value, valued, rfl⟩, rfl⟩ |
          ⟨_, k, ⟨m, ⟨name, a, named, words, c, typed, raw, given, value, valued, rfl⟩, blank⟩, read⟩)
        · exact ⟨name, a, named, words, c, typed, raw, _, given, value, valued, rfl⟩
        · refine ⟨name, a, named, words, c, typed, raw, m, given, value, valued, ?_⟩
          split
          · cases blank
          · exact Option.bind_eq_some_iff.2 ⟨k, blank, read⟩

theorem local_attributes (element : String) (fuel : Nat) (s s' : Subset) :
    Local fun cs rest => attributes? element fuel s cs = some (s', rest) :=
  (repeats_attributes element s').isLocal
    (fun s => ((local_sign '>').also _).or ((local_declares element s s').comp (local_sign '>')))
    (fun s t => (local_declares element s t).comp local_blanks) fuel s

theorem attributes?_enough {element : String} {fuel more : Nat} {s s' : Subset} {cs rest : List Char}
    (found : attributes? element fuel s cs = some (s', rest)) (fits : cs.length ≤ more) :
    attributes? element more s cs = some (s', rest) := by
  refine (repeats_attributes element s').enough ?_ 0 ?_ found fits
  · rintro s t cs f ⟨m, declared, blank⟩
    exact (length_lt_of_blanks blank).trans_le ((local_declares element s t).length_le declared)
  · rintro s rest (⟨closed, _⟩ | ⟨m, ⟨name, a, named, _⟩, _⟩)
    · cases closed
    · cases named

theorem attributeDeclaration?_eq_some_iff {s s' : Subset} {cs rest : List Char} :
    s.attributeDeclaration? cs = some (s', rest) ↔
      ∃ a, blanks? cs = some a ∧ ∃ name, ∃ b, name? a = some (name, b) ∧
        ∃ fuel, attributes? (String.ofList name) fuel s (skipBlanks b) = some (s', rest) := by
  simp only [attributeDeclaration?, Option.bind_eq_bind, Option.bind_eq_some_iff, Prod.exists]
  constructor
  · rintro ⟨name, b, ⟨a, blank, named⟩, read⟩
    exact ⟨a, blank, name, b, named, _, read⟩
  · rintro ⟨a, blank, name, b, named, fuel, read⟩
    exact ⟨name, b, ⟨a, blank, named⟩, attributes?_enough read (length_skipBlanks_le _)⟩

theorem local_attributeDeclaration (s s' : Subset) :
    Local fun cs rest => s.attributeDeclaration? cs = some (s', rest) :=
  (local_blanks.comp (.ofExists fun name => (local_name name).comp (.ofExists fun fuel =>
    (local_attributes _ fuel s s').skipBlanks))).congr fun _ _ => attributeDeclaration?_eq_some_iff

end NamespacePlan.Xml.Subset
