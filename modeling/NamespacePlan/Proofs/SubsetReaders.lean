import NamespacePlan.Proofs.DeclaredAttributes

/-! How far the declarations of a document type are read: up to the bracket that closes them. What stands
in the texts of entities they refer to is read apart from the document. -/
namespace NamespacePlan.Xml.Subset

/-! Elements. -/

theorem skipOccurrence_eq_iff {cs rest : List Char} : skipOccurrence cs = rest ↔
    (∃ c, (c = '?' ∨ c = '*' ∨ c = '+') ∧ cs = c :: rest) ∨
      (cs.head?.all fun c => !(c = '?' || c = '*' || c = '+')) = true ∧ rest = cs := by
  cases cs with
  | nil => simp [skipOccurrence, eq_comm]
  | cons c cs =>
    simp only [skipOccurrence, List.head?_cons, Option.all_some]
    split
    · next occurs => rcases occurs with rfl | rfl | rfl <;> simp
    · next other =>
      simp only [not_or] at other
      simp [other]
      grind

theorem local_skipOccurrence : Local fun cs rest => skipOccurrence cs = rest :=
  ((Local.ofExists fun c => (local_sign c).given _).or (Local.stay.when
    (decided_head fun c => (c.all fun c => !(c = '?' || c = '*' || c = '+')) = true))).congr
      fun _ _ => skipOccurrence_eq_iff

theorem particle?_succ_iff {fuel : Nat} {cs rest : List Char} :
    particle? (fuel + 1) cs = some rest ↔
      (∃ m, cs = '(' :: m ∧ ∃ k, group? fuel none m = some k ∧ skipOccurrence k = rest) ∨
      ∃ name, ∃ k, name? cs = some (name, k) ∧ skipOccurrence k = rest := by
  unfold particle?
  split
  · next m =>
    have nameless : name? ('(' :: m) = none := rfl
    simp [nameless]
  · next other =>
    have open' : ∀ m, cs ≠ '(' :: m := other
    simp [open']

theorem group?_succ_iff {fuel : Nat} {separator : Option Char} {cs rest : List Char} :
    group? (fuel + 1) separator cs = some rest ↔
      ∃ m, particle? fuel (skipBlanks cs) = some m ∧ (skipBlanks m = ')' :: rest ∨
        ∃ c, ∃ tail, skipBlanks m = c :: tail ∧
          (((c = '|' ∨ c = ',') ∧ separator.all (· == c) = true) ∧
            group? fuel (some c) tail = some rest)) := by
  rw [group?]
  simp only [Option.bind_eq_bind, Option.bind_eq_some_iff]
  refine exists_congr fun m => and_congr_right fun _ => ?_
  split
  · next c tail there =>
    rw [there]
    split
    · next closed =>
      subst closed
      simp
    · next opened =>
      split
      · next fine =>
        simp only [List.cons.injEq, opened, false_and, false_or]
        constructor
        · intro read
          exact ⟨c, tail, ⟨rfl, rfl⟩, fine, read⟩
        · rintro ⟨_, _, ⟨rfl, rfl⟩, _, read⟩
          exact read
      · next other =>
        simp only [reduceCtorEq, List.cons.injEq, opened, false_and, false_or, false_iff]
        rintro ⟨d, k, ⟨rfl, rfl⟩, fine, _⟩
        exact other fine
  · next there => simp [there]

theorem local_contentModel (fuel : Nat) : Local (fun cs rest => particle? fuel cs = some rest) ∧
    ∀ separator, Local fun cs rest => group? fuel separator cs = some rest := by
  induction fuel with
  | zero => exact ⟨fun _ _ none => (nomatch none), fun _ _ _ none => (nomatch none)⟩
  | succ fuel ih =>
    obtain ⟨particle, group⟩ := ih
    constructor
    · exact (((local_sign '(').comp ((group none).comp local_skipOccurrence)).or
        (.ofExists fun name => (local_name name).comp local_skipOccurrence)).congr
          fun _ _ => particle?_succ_iff
    · intro separator
      exact (particle.skipBlanks.comp ((local_sign ')').skipBlanks.or (.ofExists fun c =>
        ((local_sign c).comp ((group (some c)).given _)).skipBlanks))).congr
          fun _ _ => group?_succ_iff

/-- The fuel of a particle is enough if it is more than twice the length of the text, and that of a
group if it is one more. -/
theorem contentModel_enough (fuel : Nat) :
    (∀ more cs rest, particle? fuel cs = some rest → 2 * cs.length < more →
      particle? more cs = some rest) ∧
    ∀ more separator cs rest, group? fuel separator cs = some rest → 2 * cs.length + 1 < more →
      group? more separator cs = some rest := by
  induction fuel with
  | zero => exact ⟨fun _ _ _ none => (nomatch none), fun _ _ _ _ none => (nomatch none)⟩
  | succ fuel ih =>
    obtain ⟨particle, group⟩ := ih
    constructor
    · rintro (_ | more) cs rest found enough
      · cases enough
      refine particle?_succ_iff.2 ((particle?_succ_iff.1 found).imp_left ?_)
      rintro ⟨m, rfl, k, inner, skipped⟩
      rw [List.length_cons] at enough
      exact ⟨m, rfl, k, group _ _ _ _ inner (by omega), skipped⟩
    · rintro (_ | more) separator cs rest found enough
      · cases enough
      obtain ⟨m, first, further⟩ := group?_succ_iff.1 found
      have h₁ := length_skipBlanks_le cs
      have h₂ := (local_contentModel fuel).1.length_le first
      have h₃ := length_skipBlanks_le m
      refine group?_succ_iff.2 ⟨m, particle _ _ _ first (by omega), further.imp_right ?_⟩
      rintro ⟨c, tail, there, fine, later⟩
      rw [there, List.length_cons] at h₃
      exact ⟨c, tail, there, fine, group _ _ _ _ later (by omega)⟩

theorem mixed?_eq_some_iff {cs rest : List Char} : mixed? cs = some rest ↔
    (∃ m, skipBlanks cs = ')' :: m ∧ ((∃ k, behind? ['*'] m = some k ∧ rest = k) ∨
      (behind? ['*'] m = none ∧ rest = m))) ∨
    ∃ m, skipBlanks cs = '|' :: m ∧ ∃ k, (∃ fuel, choice? name? fuel m = some k) ∧
      behind? ['*'] k = some rest := by
  unfold mixed?
  split
  · next m there =>
    rw [there]
    cases star : behind? ['*'] m with
    | none => simp [star, eq_comm (a := m)]
    | some k => simp [star, eq_comm (a := k)]
  · next m there =>
    rw [there]
    simp [← choice?_iff local_name rfl (Nat.le_refl _), Option.bind_eq_some_iff]
  · next other other' =>
    refine ⟨fun h => (nomatch h), ?_⟩
    rintro (⟨m, there, _⟩ | ⟨m, there, _⟩)
    · exact (other m there).elim
    · exact (other' m there).elim

theorem local_mixed : Local fun cs rest => mixed? cs = some rest :=
  (((local_sign ')').comp (.tryWord (by decide) .stay .stay)).skipBlanks.or
    ((local_sign '|').comp ((Local.ofExists fun fuel => local_choice local_name fuel).comp
      (local_behind _))).skipBlanks).congr fun _ _ => mixed?_eq_some_iff

theorem content?_eq_some_iff {cs rest : List Char} : content? cs = some rest ↔
    (∃ m, behind? "EMPTY".toList cs = some m ∧ rest = m) ∨ (behind? "EMPTY".toList cs = none ∧
      ((∃ m, behind? "ANY".toList cs = some m ∧ rest = m) ∨ (behind? "ANY".toList cs = none ∧
        ((∃ m, behind? ['('] cs = some m ∧ ∃ k, behind? "#PCDATA".toList (skipBlanks m) = some k ∧
            mixed? k = some rest) ∨
        ((∃ m, behind? ['('] cs = some m ∧ behind? "#PCDATA".toList (skipBlanks m) = none) ∧
          ∃ fuel, particle? fuel cs = some rest))))) := by
  have enough : (∃ fuel, particle? fuel cs = some rest) ↔
      particle? (2 * cs.length + 2) cs = some rest :=
    ⟨fun ⟨fuel, found⟩ => (contentModel_enough fuel).1 _ _ _ found (by omega), fun found => ⟨_, found⟩⟩
  rw [enough]
  unfold content?
  generalize "#PCDATA".toList = word
  cases behind? "EMPTY".toList cs with
  | some m => simp [eq_comm]
  | none =>
    cases behind? "ANY".toList cs with
    | some m => simp [eq_comm]
    | none =>
      cases behind? ['('] cs with
      | none => simp
      | some m =>
        cases data : behind? word (skipBlanks m) with
        | none => simp [data]
        | some k => simp [data]

theorem local_content : Local fun cs rest => content? cs = some rest := by
  have named : Decided fun cs => ∃ m, behind? ['('] cs = some m ∧
      behind? "#PCDATA".toList (skipBlanks m) = none := by
    rintro u v alike ⟨m, bracket, missing⟩
    obtain ⟨m', bracket', alike'⟩ := alike.behind (by decide) bracket
    exact ⟨m', bracket', decided_missing (by decide) alike'.skipBlanks missing⟩
  exact (Local.tryWord (by decide) .stay (.tryWord (by decide) .stay
    (((local_behind _).comp ((local_behind _).comp local_mixed).skipBlanks).or
      ((Local.ofExists fun fuel => (local_contentModel fuel).1).when named)))).congr
        fun _ _ => content?_eq_some_iff

theorem elementDeclaration?_eq_some_iff {cs rest : List Char} : elementDeclaration? cs = some rest ↔
    ∃ a, blanks? cs = some a ∧ ∃ name, ∃ b, name? a = some (name, b) ∧ ∃ c, blanks? b = some c ∧
      ∃ d, content? c = some d ∧ behind? ['>'] (skipBlanks d) = some rest := by
  simp only [elementDeclaration?, Option.bind_eq_bind, Option.bind_eq_some_iff, Prod.exists]
  grind

theorem local_elementDeclaration : Local fun cs rest => elementDeclaration? cs = some rest :=
  (local_blanks.comp (.ofExists fun name => (local_name name).comp (local_blanks.comp
    (local_content.comp (local_behind _).skipBlanks)))).congr fun _ _ => elementDeclaration?_eq_some_iff

/-! Notations. -/

/-- The end of a declaration. -/
def Closes (cs rest : List Char) : Prop := behind? ['>'] (skipBlanks cs) = some rest

theorem local_closes : Local Closes := (local_behind _).skipBlanks

/-- A public identifier behind its keyword. -/
def Publishes (cs rest : List Char) : Prop :=
  ∃ m, behind? "PUBLIC".toList cs = some m ∧ ∃ k, blanks? m = some k ∧
    ∃ identifier, quoted? k = some (identifier, rest) ∧ identifier.all isPublicChar = true

theorem local_publishes : Local Publishes :=
  (local_behind _).comp (local_blanks.comp (.ofExists fun identifier => (local_quoted identifier).also _))

theorem closed_externalId_iff {cs rest : List Char} :
    (∃ m, externalId? false cs = some m ∧ Closes m rest) ↔
      (∃ m, behind? "SYSTEM".toList cs = some m ∧ ∃ k, blanks? m = some k ∧
        ∃ place, ∃ l, quoted? k = some (place, l) ∧ Closes l rest) ∨
      ∃ l, Publishes cs l ∧
        ((∃ place, ∃ k, quoted? (skipBlanks l) = some (place, k) ∧ Closes k rest) ∨ Closes l rest) := by
  unfold externalId? Publishes
  split
  · next m own =>
    have other : behind? "PUBLIC".toList cs = none := behind?_apart [] own (by decide)
    rw [own, other]
    simp only [quotedBehindBlanks, reduceCtorEq, false_and, exists_false, or_false, Option.some.injEq,
      exists_eq_left']
    grind
  · next m other own =>
    rw [own, other]
    simp only [Option.bind_eq_bind, Option.bind_eq_some_iff, Prod.exists, reduceCtorEq, false_and,
      exists_false, false_or, Option.some.injEq, exists_eq_left']
    constructor
    · rintro ⟨l, ⟨identifier, k, ⟨j, blank, quotes⟩, read⟩, closes⟩
      split at read
      · next fine =>
        simp only [if_false] at read
        refine ⟨k, ⟨j, blank, identifier, quotes, fine⟩, ?_⟩
        split at read
        · next place tail there =>
          cases read
          exact .inl ⟨place, _, there, closes⟩
        · cases read
          exact .inr closes
      · cases read
    · rintro ⟨l, ⟨j, blank, identifier, quotes, fine⟩, ⟨place, k, there, closes⟩ | closes⟩
      · refine ⟨k, ⟨identifier, l, ⟨j, blank, quotes⟩, ?_⟩, closes⟩
        simp [fine, there]
      · refine ⟨l, ⟨identifier, l, ⟨j, blank, quotes⟩, ?_⟩, closes⟩
        have unquoted : quoted? (skipBlanks l) = none := by
          rw [behind?_eq_some_iff.1 closes]
          rfl
        simp [fine, unquoted]
  · next other other' =>
    rw [other, other']
    simp

theorem notationDeclaration?_eq_some_iff {cs rest : List Char} :
    notationDeclaration? cs = some rest ↔ ∃ a, blanks? cs = some a ∧ ∃ name, ∃ b,
      name? a = some (name, b) ∧ ∃ c, blanks? b = some c ∧
        ∃ d, externalId? false c = some d ∧ Closes d rest := by
  simp only [notationDeclaration?, Closes, Option.bind_eq_bind, Option.bind_eq_some_iff, Prod.exists]
  grind

theorem local_notationDeclaration : Local fun cs rest => notationDeclaration? cs = some rest := by
  have placed : Local fun cs rest => ∃ place, ∃ l, quoted? cs = some (place, l) ∧ Closes l rest :=
    .ofExists fun place => (local_quoted place).comp local_closes
  have outside : Local fun cs rest => ∃ m, externalId? false cs = some m ∧ Closes m rest :=
    (((local_behind _).comp (local_blanks.comp placed)).or
      (local_publishes.comp (placed.skipBlanks.or local_closes))).congr fun _ _ => closed_externalId_iff
  exact (local_blanks.comp (.ofExists fun name => (local_name name).comp
    (local_blanks.comp outside))).congr fun _ _ => notationDeclaration?_eq_some_iff

/-! All declarations. -/

theorem local_map {read : List Char → Option (List Char)} (s s' : Subset)
    (reads : Local fun cs rest => read cs = some rest) :
    Local fun cs rest => (read cs).map (s, ·) = some (s', rest) := by
  refine (reads.also (s = s')).congr fun cs rest => ⟨fun mapped => ?_, ?_⟩
  · obtain ⟨_, found, ⟨⟩⟩ := Option.map_eq_some_iff.1 mapped
    exact ⟨found, rfl⟩
  · rintro ⟨found, rfl⟩
    rw [found]
    rfl

theorem markup?_eq_some_iff {s s' : Subset} {cs rest : List Char} :
    s.markup? cs = some (s', rest) ↔
      (∃ m, behind? "<!--".toList cs = some m ∧ (commentEnd? m).map (s, ·) = some (s', rest)) ∨
      (behind? "<!--".toList cs = none ∧
      ((∃ m, behind? "<?".toList cs = some m ∧ (instruction? m).map (s, ·) = some (s', rest)) ∨
      (behind? "<?".toList cs = none ∧
      ((∃ m, behind? "<!ENTITY".toList cs = some m ∧ s.entityDeclaration? m = some (s', rest)) ∨
      (behind? "<!ENTITY".toList cs = none ∧
      ((∃ m, behind? "<!ATTLIST".toList cs = some m ∧ s.attributeDeclaration? m = some (s', rest)) ∨
      (behind? "<!ATTLIST".toList cs = none ∧
      ((∃ m, behind? "<!ELEMENT".toList cs = some m ∧
        (elementDeclaration? m).map (s, ·) = some (s', rest)) ∨
      (behind? "<!ELEMENT".toList cs = none ∧
      ∃ m, behind? "<!NOTATION".toList cs = some m ∧
        (notationDeclaration? m).map (s, ·) = some (s', rest)))))))))) := by
  unfold markup?
  generalize behind? "<!--".toList cs = comment
  generalize behind? "<?".toList cs = instruction
  generalize behind? "<!ENTITY".toList cs = entity
  generalize behind? "<!ATTLIST".toList cs = attributes
  generalize behind? "<!ELEMENT".toList cs = element
  generalize behind? "<!NOTATION".toList cs = named
  cases comment with
  | some => simp
  | none =>
    cases instruction with
    | some => simp
    | none =>
      cases entity with
      | some => simp
      | none =>
        cases attributes with
        | some => simp
        | none =>
          cases element with
          | some => simp
          | none => cases named <;> simp

theorem local_markup (s s' : Subset) : Local fun cs rest => s.markup? cs = some (s', rest) :=
  (Local.tryWord (by decide) (local_map s s' local_commentEnd)
    (.tryWord (by decide) (local_map s s' local_instruction)
      (.tryWord (by decide) (local_entityDeclaration s s')
        (.tryWord (by decide) (local_attributeDeclaration s s')
          (.tryWord (by decide) (local_map s s' local_elementDeclaration)
            ((local_behind _).comp (local_map s s' local_notationDeclaration))))))).congr
              fun _ _ => markup?_eq_some_iff

theorem length_lt_of_markup {s s' : Subset} {cs rest : List Char} (found : s.markup? cs = some (s', rest)) :
    rest.length < cs.length := by
  rcases markup?_eq_some_iff.1 found with ⟨m, word, read⟩ | ⟨_, ⟨m, word, read⟩ | ⟨_, ⟨m, word, read⟩ |
    ⟨_, ⟨m, word, read⟩ | ⟨_, ⟨m, word, read⟩ | ⟨_, m, word, read⟩⟩⟩⟩⟩
  · exact (local_map s s' local_commentEnd).length_lt (by decide) word read
  · exact (local_map s s' local_instruction).length_lt (by decide) word read
  · exact (local_entityDeclaration s s').length_lt (by decide) word read
  · exact (local_attributeDeclaration s s').length_lt (by decide) word read
  · exact (local_map s s' local_elementDeclaration).length_lt (by decide) word read
  · exact (local_map s s' local_notationDeclaration).length_lt (by decide) word read

section Declarations

variable {standalone : Bool} {inside : String → List Char → Subset → Option Subset}

/-- A declaration, or a reference to an entity that stands for declarations. -/
def Goes (standalone : Bool) (inside : String → List Char → Subset → Option Subset) (s t : Subset)
    (cs rest : List Char) : Prop :=
  (∃ m, skipBlanks cs = '%' :: m ∧ ∃ name, entityName? m = some (name, rest) ∧
    s.refer? standalone inside name = some t) ∨
  s.markup? (skipBlanks cs) = some (t, rest)

theorem local_goes (s t : Subset) : Local (Goes standalone inside s t) :=
  ((local_sign '%').comp (.ofExists fun name => (local_entityName name).also _)).skipBlanks.or
    (local_markup s t).skipBlanks

theorem length_lt_of_goes {s t : Subset} {cs rest : List Char} (goes : Goes standalone inside s t cs rest) :
    rest.length < cs.length := by
  have skipped := length_skipBlanks_le cs
  rcases goes with ⟨m, there, name, named, _⟩ | marked
  · have shorter := (local_entityName name).length_le named
    rw [there, List.length_cons] at skipped
    omega
  · have shorter := length_lt_of_markup marked
    omega

theorem repeats_declarationsWith (s' : Subset) :
    Repeats (fun fuel s cs rest => declarationsWith? standalone true inside fuel s cs = some (s', rest))
      (fun s cs rest => skipBlanks cs = ']' :: rest ∧ s = s') (Goes standalone inside) where
  zero _ _ _ := nofun
  succ fuel s cs rest := by
    have unmarked : ∀ c m, c ≠ '<' → s.markup? (c :: m) = none := by
      intro c m other
      simp [markup?, behind?_other other]
    rw [declarationsWith?]
    unfold Goes
    split
    · next there => simp [there, show s.markup? [] = none from rfl]
    · next m there => simp [there, unmarked, and_comm]
    · next m there =>
      simp only [there, unmarked _ _ (by decide : '%' ≠ '<'), Option.bind_eq_bind,
        Option.bind_eq_some_iff, Prod.exists]
      simp
      grind
    · next _ closed referred =>
      have opened : skipBlanks cs ≠ ']' :: rest := closed rest
      have plain : ∀ m, skipBlanks cs ≠ '%' :: m := referred
      simp [opened, plain, Option.bind_eq_some_iff]

theorem local_declarationsWith (fuel : Nat) (s s' : Subset) : Local fun cs rest =>
    declarationsWith? standalone true inside fuel s cs = some (s', rest) :=
  (repeats_declarationsWith s').isLocal (fun _ => (local_sign ']').skipBlanks.also _) local_goes fuel s

/-- The fuel of declarations is enough if it is more than the length of the text. -/
theorem declarationsWith?_enough {fuel more : Nat} {s s' : Subset} {cs rest : List Char}
    (found : declarationsWith? standalone true inside fuel s cs = some (s', rest))
    (fits : cs.length < more) : declarationsWith? standalone true inside more s cs = some (s', rest) :=
  (repeats_declarationsWith s').enough length_lt_of_goes 1 (fun _ => Nat.one_pos) found fits

end Declarations

theorem local_declarations (standalone : Bool) (s s' : Subset) :
    Local fun cs rest => declarations? standalone s cs = some (s', rest) := by
  have any : Local fun cs rest => ∃ fuel, declarationsWith? standalone true
      (inEntity? standalone Entities.room []) fuel s cs = some (s', rest) :=
    .ofExists fun fuel => local_declarationsWith fuel s s'
  refine any.congr fun cs rest => ?_
  exact ⟨fun found => ⟨_, found⟩, fun ⟨_, found⟩ => declarationsWith?_enough found (Nat.lt_succ_self _)⟩

end NamespacePlan.Xml.Subset
