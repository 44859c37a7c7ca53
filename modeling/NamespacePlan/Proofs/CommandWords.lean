import NamespacePlan.CommandLine.Invocation

/-! The words of a command line, read one after the other. An option with its value behind an equals
sign can stand directly behind the command: it is then the first one that is given, and changes nothing
else about what the command line asks for. -/
namespace NamespacePlan.CommandLine

/-! One word. -/

namespace Word

theorem splitValue_append {name : String} (plain : '=' ∉ name.toList) (value : String) :
    splitValue (name ++ "=" ++ value) = (name, some value) := by
  have letters : (name ++ "=" ++ value).toList = name.toList ++ '=' :: value.toList := by
    simp [String.toList_append]
  have front : (name.toList ++ '=' :: value.toList).takeWhile (· != '=') = name.toList := by
    have inside : ∀ c ∈ name.toList, (c != '=') = true := by
      rintro c member
      simp only [bne_iff_ne, ne_eq]
      rintro rfl
      exact plain member
    simp [List.takeWhile_append_of_pos inside]
  simp only [splitValue, letters, front]
  simp [List.drop_append]

theorem lookup_eq_none_of_sign {os : List Opt} (plain : ∀ e ∈ namesOf os, '=' ∉ e.1.toList)
    {s : String} (sign : '=' ∈ s.toList) : (namesOf os).lookup s = none := by
  apply List.lookup_eq_none_iff.2
  intro e member
  have other : s ≠ e.1 := fun h => plain e member (h ▸ sign)
  simpa using other

section Sign

variable {os : List Opt} (names : ∀ e ∈ namesOf os, '=' ∉ e.1.toList) {name : String}
  (plain : '=' ∉ name.toList) (hyphen : ∃ c cs, name.toList = '-' :: c :: cs)

include hyphen

theorem of_sign (value : String) : of os (name ++ "=" ++ value) = ofHyphen os (name ++ "=" ++ value) := by
  obtain ⟨c, cs, letters⟩ := hyphen
  unfold of
  simp [String.toList_append, letters]

include names plain

/-- An option with its value behind an equals sign. -/
theorem of_valued {o : Opt} (listed : (namesOf os).lookup name = some o) (value : String) :
    of os (name ++ "=" ++ value) = .ok (option o name (some value)) := by
  have whole : (namesOf os).lookup (name ++ "=" ++ value) = none :=
    lookup_eq_none_of_sign names (by simp [String.toList_append])
  rw [of_sign hyphen]
  simp only [ofHyphen, splitValue_append plain, whole, listed]

/-- A word that shortens no option is none, whatever stands behind its equals sign. -/
theorem of_unlisted (long : ∃ cs, name.toList = '-' :: '-' :: cs)
    (other : ∀ e ∈ namesOf os, name.toList.isPrefixOf e.1.toList = false) (value : String) :
    ∃ w, of os (name ++ "=" ++ value) = .ok w := by
  obtain ⟨cs, letters⟩ := long
  have whole : (namesOf os).lookup (name ++ "=" ++ value) = none :=
    lookup_eq_none_of_sign names (by simp [String.toList_append])
  have unlisted : (namesOf os).lookup name = none := by
    apply List.lookup_eq_none_iff.2
    intro e member
    have different : name ≠ e.1 := by
      intro same
      have own : name.toList.isPrefixOf e.1.toList = true := by simp [same]
      rw [other e member] at own
      cases own
    simpa using different
  have none_ : candidates os (name ++ "=" ++ value) = [] := by
    unfold candidates
    simp only [String.toList_append, letters, List.cons_append, splitValue_append plain]
    rw [List.filterMap_eq_nil_iff]
    intro e member
    simp [← letters, other e member]
  rw [of_sign hyphen]
  simp only [ofHyphen, splitValue_append plain, whole, unlisted, none_]
  split
  · exact ⟨_, rfl⟩
  · exact ⟨_, rfl⟩

end Sign

theorem of_plain (os : List Opt) {s : String} (plain_ : s.toList.head? ≠ some '-') :
    of os s = .ok (plain s) := by
  unfold of
  split
  · rename_i letters
    simp [letters] at plain_
  · rfl

theorem mem_of_candidates {os : List Opt} {s name : String} {o : Opt} {value : Option String}
    (member : (o, name, value) ∈ candidates os s) : (name, o) ∈ namesOf os := by
  unfold candidates at member
  split at member
  · obtain ⟨e, listed, h⟩ := List.mem_filterMap.1 member
    split at h
    · cases h
      exact listed
    · cases h
  · obtain ⟨e, listed, h⟩ := List.mem_filterMap.1 member
    split at h
    · cases h
      exact listed
    · split at h
      · cases h
        exact listed
      · cases h
  · cases member

theorem mem_of_lookup {os : List Opt} {s : String} {o : Opt}
    (found : (namesOf os).lookup s = some o) : (s, o) ∈ namesOf os := by
  obtain ⟨before, after, parts, _⟩ := List.lookup_eq_some_iff.1 found
  simp [parts]

/-- A word is plain, or unknown, or one of the options by its full name. -/
theorem of_cases {os : List Opt} {s : String} {w : Word} (h : of os s = .ok w) :
    w = plain s ∨ w = unknown s ∨
      ∃ o name value, w = option o name value ∧ (name, o) ∈ namesOf os := by
  unfold of at h
  split at h
  · unfold ofHyphen at h
    dsimp only at h
    split at h
    · rename_i found
      cases h
      exact Or.inr (Or.inr ⟨_, _, _, rfl, mem_of_lookup found⟩)
    · rename_i found
      cases h
      exact Or.inr (Or.inr ⟨_, _, _, rfl, mem_of_lookup found⟩)
    · split at h
      · rename_i only
        cases h
        exact Or.inr (Or.inr ⟨_, _, _, rfl,
          mem_of_candidates (only ▸ List.mem_singleton_self _)⟩)
      · split at h
        · cases h
          exact Or.inl rfl
        · cases h
          exact Or.inr (Or.inl rfl)
      · cases h
  · cases h
    exact Or.inl rfl

theorem all_cons_iff {os : List Opt} {s : String} {rest : List String} {ws : List Word}
    (proper : s ≠ "--") : all os (s :: rest) = .ok ws ↔
      ∃ w vs, of os s = .ok w ∧ all os rest = .ok vs ∧ ws = w :: vs := by
  rw [all, if_neg proper]
  cases of os s with
  | error m => simp
  | ok w =>
    cases all os rest with
    | error m => simp
    | ok vs => simp [eq_comm]

theorem length_all {os : List Opt} {args : List String} {ws : List Word}
    (words : all os args = .ok ws) : ws.length = args.length := by
  induction args generalizing ws with
  | nil => cases words; rfl
  | cons s rest ih =>
    by_cases mark : s = "--"
    · simp only [all, mark, if_true] at words
      cases words
      simp
    · obtain ⟨w, vs, _, later, rfl⟩ := (all_cons_iff mark).1 words
      simp [ih later]

/-- All options among the words are there by their full names. -/
def Listed (os : List Opt) (ws : List Word) : Prop :=
  ∀ o name value, option o name value ∈ ws → (name, o) ∈ namesOf os

theorem listed_all {os : List Opt} {args : List String} {ws : List Word}
    (words : all os args = .ok ws) : Listed os ws := by
  induction args generalizing ws with
  | nil =>
    cases words
    exact fun _ _ _ member => nomatch member
  | cons s rest ih =>
    by_cases mark : s = "--"
    · simp only [all, mark, if_true] at words
      cases words
      intro o name value member
      simp at member
    · obtain ⟨w, vs, first, later, rfl⟩ := (all_cons_iff mark).1 words
      intro o name value member
      rcases List.mem_cons.1 member with rfl | inside
      · rcases of_cases first with h | h | ⟨_, _, _, h, listed⟩
        · cases h
        · cases h
        · cases h
          exact listed
      · exact ih later o name value inside

end Word

/-! One option, and the word behind it if that is its value. -/

theorem map_pair_eq_ok_iff {ε α β : Type} {x : Except ε α} {b b' : β} {a : α} :
    x.map (·, b) = .ok (a, b') ↔ x = .ok a ∧ b' = b := by
  cases x with
  | error e => exact ⟨fun h => (nomatch h), fun h => (nomatch h.1)⟩
  | ok y => simp [Except.map, eq_comm]

/-- An option that takes a value has it from the next word if none is in its own. -/
theorem takeOption_of_takes {c : Command} {o : Opt} {name : String} (takes : o.takes ≠ .nothing)
    (ws : List Word) : takeOption c o name none ws =
      match ws with
      | .plain v :: ws => (withValue c o name v).map (·, ws)
      | _ => .error (.misuse c (.missingValue o)) := by
  cases kind : o.takes with
  | nothing => exact absurd kind takes
  | _ =>
    unfold takeOption
    simp only [kind]
    rcases ws with _ | ⟨_ | _ | _ | _, ws⟩ <;> rfl

/-- An option takes its value from its own word or from the next, and leaves all other words. -/
theorem takeOption_cases {c : Command} {o : Opt} {name : String} {value : Option String}
    {ws rest : List Word} {g : Given} (taken : takeOption c o name value ws = .ok (g, rest)) :
    (rest = ws ∧ ∀ vs, takeOption c o name value vs = .ok (g, vs)) ∨
      ∃ v, ws = .plain v :: rest ∧
        ∀ vs, takeOption c o name value (.plain v :: vs) = .ok (g, vs) := by
  unfold takeOption at taken
  split at taken
  · obtain ⟨read, rfl⟩ := map_pair_eq_ok_iff.1 taken
    refine Or.inl ⟨rfl, fun vs => ?_⟩
    simp only [takeOption, read]
    rfl
  · rename_i nothing
    obtain ⟨read, rfl⟩ := map_pair_eq_ok_iff.1 taken
    refine Or.inl ⟨rfl, fun vs => ?_⟩
    simp only [takeOption, nothing, read]
    rfl
  · rename_i v rest' more
    obtain ⟨read, rfl⟩ := map_pair_eq_ok_iff.1 taken
    refine Or.inr ⟨v, rfl, fun vs => ?_⟩
    simp only [takeOption, read]
    rfl
  · cases taken

theorem withValue_given {c : Command} {o : Opt} {name value : String} {g : Given}
    (read : withValue c o name value = .ok g) : g = ⟨name, some value⟩ := by
  unfold withValue at read
  split at read
  · cases read
  · cases read
    rfl
  · split at read
    · cases read
      rfl
    · cases read

/-- What is given has a value if the option takes one. -/
theorem takeOption_given {c : Command} {o : Opt} {name : String} {value : Option String}
    {ws rest : List Word} {g : Given} (taken : takeOption c o name value ws = .ok (g, rest)) :
    g.name = name ∧ (o.takes ≠ .nothing → g.value.isSome = true) := by
  unfold takeOption at taken
  split at taken
  · obtain ⟨read, _⟩ := map_pair_eq_ok_iff.1 taken
    simp [withValue_given read]
  · rename_i nothing
    obtain ⟨read, _⟩ := map_pair_eq_ok_iff.1 taken
    unfold withoutValue at read
    split at read
    · cases read
    · cases read
      simp [nothing]
  · obtain ⟨read, _⟩ := map_pair_eq_ok_iff.1 taken
    simp [withValue_given read]
  · cases taken

/-! The words in front of the command. -/

theorem openingOf_option {fuel : Nat} {o : Opt} {name : String} {value : Option String}
    {ws rest : List Word} {args args' : List String} {s : Opening} {g : Given}
    (taken : takeOption .top o name value ws = .ok (g, rest))
    (left : args.drop (args.length - rest.length) = args') :
    openingOf (fuel + 1) (.option o name value :: ws) args s =
      openingOf fuel rest args' { s with given := s.given ++ [g] } := by
  rw [openingOf, taken, ← left]
  rfl

theorem exists_option_step {fuel : Nat} {o : Opt} {name : String} {value : Option String}
    {ws : List Word} {args : List String} {s s' : Opening}
    (opened : openingOf (fuel + 1) (.option o name value :: ws) args s = .ok s') :
    ∃ g rest, takeOption .top o name value ws = .ok (g, rest) := by
  rw [openingOf] at opened
  cases taken : takeOption .top o name value ws with
  | error m =>
    rw [taken] at opened
    cases opened
  | ok pair => exact ⟨pair.1, pair.2, rfl⟩

/-- The words up to the command are read alike, whatever stands behind it. -/
structure ReadAlike (fuel : Nat) (args : List String) (s s' : Opening) (w : String)
    (front : List String) : Prop where
  parts : args = front ++ w :: s'.behind
  words : ∃ vs, Word.all (Command.options .top) s'.behind = .ok vs
  opens : ∀ behind vs, Word.all (Command.options .top) behind = .ok vs →
    ∃ ws, Word.all (Command.options .top) (front ++ w :: behind) = .ok ws ∧
      ∀ n, fuel ≤ n → openingOf n ws (front ++ w :: behind) s = .ok { s' with behind := behind }

/-- More words in front, if reading them goes on with the others. -/
theorem ReadAlike.prepend {fuel : Nat} {lead args front : List String} {s s₁ s' : Opening}
    {w : String} {xs : List Word} (later : ReadAlike fuel args s₁ s' w front)
    (first : ∀ {args ws}, Word.all (Command.options .top) args = .ok ws →
      Word.all (Command.options .top) (lead ++ args) = .ok (xs ++ ws))
    (onward : ∀ {n ws args}, ws.length = args.length →
      openingOf (n + 1) (xs ++ ws) (lead ++ args) s = openingOf n ws args s₁) :
    ReadAlike (fuel + 1) (lead ++ args) s s' w (lead ++ front) where
  parts := by rw [later.parts, List.append_assoc]
  words := later.words
  opens behind vs all := by
    obtain ⟨ws, words, opens⟩ := later.opens behind vs all
    rw [List.append_assoc]
    refine ⟨xs ++ ws, first words, fun n enough => ?_⟩
    obtain ⟨m, rfl⟩ : ∃ m, n = m + 1 := ⟨n - 1, by omega⟩
    rw [onward (Word.length_all words)]
    exact opens m (by omega)

/-- The command itself stands in front of all that is behind it. -/
theorem readAlike_command {fuel : Nat} {w : String} {as : List String} {xs : List Word} {s : Opening}
    (mark : w ≠ "--") (first : Word.of (Command.options .top) w = .ok (.plain w))
    (later : Word.all (Command.options .top) as = .ok xs) :
    ReadAlike (fuel + 1) (w :: as) s { s with word := some w, behind := as } w [] where
  parts := rfl
  words := ⟨xs, later⟩
  opens behind vs all := by
    refine ⟨_, (Word.all_cons_iff mark).2 ⟨_, _, first, all, rfl⟩, fun n enough => ?_⟩
    obtain ⟨m, rfl⟩ : ∃ m, n = m + 1 := ⟨n - 1, by omega⟩
    rfl

/-- Behind the mark there is no other command than the mark. -/
theorem command_of_mark {fuel : Nat} {ws : List Word} {as : List String} {s s' : Opening} {w : String}
    (words : Word.all (Command.options .top) ("--" :: as) = .ok ws)
    (opened : openingOf fuel ws ("--" :: as) s = .ok s') (before : s.word = none)
    (found : s'.word = some w) : w = "--" := by
  rw [Word.all, if_pos rfl] at words
  cases words
  cases fuel with
  | zero =>
    cases opened
    simp [before] at found
  | succ fuel =>
    cases as with
    | nil =>
      cases opened
      simp [before] at found
    | cons b bs =>
      cases opened
      cases found
      rfl

theorem drop_words (lead : List String) {args : List String} {vs : List Word}
    (length : vs.length = args.length) :
    (lead ++ args).drop ((lead ++ args).length - vs.length) = args := by
  have front : (lead ++ args).length - vs.length = lead.length := by
    rw [List.length_append, length, Nat.add_sub_cancel]
  rw [front, List.drop_left]

theorem exists_readAlike {fuel : Nat} {ws : List Word} {args : List String} {s s' : Opening}
    {w : String} (words : Word.all (Command.options .top) args = .ok ws)
    (opened : openingOf fuel ws args s = .ok s') (before : s.word = none) (found : s'.word = some w)
    (proper : w ≠ "--") : ∃ front, ReadAlike fuel args s s' w front := by
  induction fuel generalizing ws args s with
  | zero =>
    cases opened
    simp [before] at found
  | succ fuel ih =>
    cases args with
    | nil =>
      cases words
      cases opened
      simp [before] at found
    | cons a as =>
      have mark : a ≠ "--" := by
        rintro rfl
        exact proper (command_of_mark words opened before found)
      obtain ⟨x, xs, first, later, rfl⟩ := (Word.all_cons_iff mark).1 words
      have one : ∀ {args ws}, Word.all (Command.options .top) args = .ok ws →
          Word.all (Command.options .top) ([a] ++ args) = .ok ([x] ++ ws) :=
        fun all => (Word.all_cons_iff mark).2 ⟨_, _, first, all, rfl⟩
      rcases Word.of_cases first with rfl | rfl | ⟨o, name, value, rfl, _⟩
      · cases opened
        cases found
        exact ⟨[], readAlike_command mark first later⟩
      · obtain ⟨front, alike⟩ := ih later opened before
        exact ⟨[a] ++ front, alike.prepend one fun _ => rfl⟩
      · obtain ⟨g, rest, taken⟩ := exists_option_step opened
        have length := Word.length_all later
        rcases takeOption_cases taken with ⟨rfl, same⟩ | ⟨v, rfl, same⟩
        · have onward := (openingOf_option taken (drop_words [a] length)).symm.trans opened
          obtain ⟨front, alike⟩ := ih later onward before
          refine ⟨[a] ++ front, alike.prepend one fun {n vs args} length => ?_⟩
          exact openingOf_option (same vs) (drop_words [a] length)
        · -- the value is the next word
          cases as with
          | nil => cases later
          | cons b bs =>
            have plain : b ≠ "--" := by
              rintro rfl
              simp [Word.all] at later
            obtain ⟨y, ys, second, last, parts⟩ := (Word.all_cons_iff plain).1 later
            cases parts
            have two := drop_words [a, b] (Word.length_all last)
            have onward := (openingOf_option taken two).symm.trans opened
            obtain ⟨front, alike⟩ := ih last onward before
            have both : ∀ {args ws}, Word.all (Command.options .top) args = .ok ws →
                Word.all (Command.options .top) ([a, b] ++ args) =
                  .ok ([.option o name value, .plain v] ++ ws) :=
              fun all => one ((Word.all_cons_iff plain).2 ⟨_, _, second, all, rfl⟩)
            refine ⟨[a, b] ++ front, alike.prepend both fun {n vs args} length => ?_⟩
            exact openingOf_option (same vs) (drop_words [a, b] length)

/-! The words of the command. -/

theorem plainRun_suffix (ws : List Word) : (plainRun ws).2 <:+ ws := by
  induction ws with
  | nil => exact List.suffix_refl _
  | cons w ws ih =>
    cases w with
    | plain s => exact ih.trans (List.suffix_cons _ _)
    | mark => exact ih.trans (List.suffix_cons _ _)
    | option o name value => exact List.suffix_refl _
    | unknown s => exact List.suffix_refl _

theorem takeOption_suffix {c : Command} {o : Opt} {name : String} {value : Option String}
    {ws rest : List Word} {g : Given} (taken : takeOption c o name value ws = .ok (g, rest)) :
    rest <:+ ws := by
  rcases takeOption_cases taken with ⟨rfl, _⟩ | ⟨v, rfl, _⟩
  · exact List.suffix_refl _
  · exact List.suffix_cons _ _

/-- An option of a command, with a value if it takes one. -/
def Given.Proper (c : Command) (g : Given) : Prop :=
  ∃ o, (g.name, o) ∈ Word.namesOf c.options ∧ (o.takes ≠ .nothing → g.value.isSome = true)

theorem Word.Listed.suffix {os : List Opt} {ws rest : List Word} (listed : Listed os ws)
    (ending : rest <:+ ws) : Listed os rest :=
  fun o name value member => listed o name value (ending.subset member)

/-- A plain word, or the mark in front of such words. -/
def Word.IsText : Word → Prop
  | plain _ | mark => True
  | _ => False

theorem Word.kinds (w : Word) :
    (∃ o name value, w = option o name value) ∨ (∃ x, w = unknown x) ∨ w.IsText := by
  cases w with
  | option o name value => exact .inl ⟨o, name, value, rfl⟩
  | unknown x => exact .inr (.inl ⟨x, rfl⟩)
  | _ => exact .inr (.inr trivial)

/-- The place among words that begin with a plain word or the mark, the plain words behind it, and the
words that are left. -/
def placeStep (placeOpen : Bool) (ws : List Word) : Option String × List String × List Word :=
  let first := if placeOpen then firstPlain ws else (none, ws)
  (first.1, plainRun first.2)

theorem firstPlain_suffix {w : Word} (text : w.IsText) (ws : List Word) :
    (firstPlain (w :: ws)).2 <:+ ws := by
  cases w with
  | mark =>
    rcases ws with _ | ⟨_ | _ | _ | _, ws⟩
    · exact List.suffix_refl _
    · exact List.suffix_cons _ _
    all_goals exact List.suffix_refl _
  | plain x =>
    rcases ws with _ | ⟨_ | _ | _ | _, ws⟩
    · exact List.suffix_refl _
    · exact List.suffix_refl _
    · exact List.suffix_cons _ _
    all_goals exact List.suffix_refl _
  | _ => cases text

theorem placeStep_suffix (placeOpen : Bool) {w : Word} (text : w.IsText) (ws : List Word) :
    (placeStep placeOpen (w :: ws)).2.2 <:+ ws := by
  cases placeOpen with
  | true => exact (plainRun_suffix _).trans (firstPlain_suffix text ws)
  | false =>
    cases w with
    | mark => exact plainRun_suffix ws
    | plain x => exact plainRun_suffix ws
    | _ => cases text

/-- A plain word, and the mark, go with all plain words behind them. -/
theorem sortWords_text (c : Command) (placeOpen : Bool) (fuel : Nat) {w : Word} (text : w.IsText)
    (ws : List Word) (s : Sorted) : sortWords c placeOpen (fuel + 1) (w :: ws) s =
      sortWords c false fuel (placeStep placeOpen (w :: ws)).2.2
        { s with
          place := s.place.or (placeStep placeOpen (w :: ws)).1
          extra := s.extra ++ (placeStep placeOpen (w :: ws)).2.1 } := by
  cases w with
  | plain x => rfl
  | mark => rfl
  | _ => cases text

theorem sortWords_proper {c : Command} {placeOpen : Bool} {fuel : Nat} {ws : List Word}
    {s r : Sorted} (listed : Word.Listed c.options ws) (before : ∀ g ∈ s.given, g.Proper c)
    (sorts : sortWords c placeOpen fuel ws s = .ok r) : ∀ g ∈ r.given, g.Proper c := by
  induction fuel generalizing placeOpen ws s with
  | zero =>
    cases sorts
    exact before
  | succ fuel ih =>
    cases ws with
    | nil =>
      cases sorts
      exact before
    | cons w ws =>
      have later : Word.Listed c.options ws := listed.suffix (List.suffix_cons _ _)
      rcases w.kinds with ⟨o, name, value, rfl⟩ | ⟨x, rfl⟩ | text
      · rw [sortWords] at sorts
        cases taken : takeOption c o name value ws with
        | error m =>
          rw [taken] at sorts
          cases sorts
        | ok pair =>
          rw [taken] at sorts
          refine ih (later.suffix (takeOption_suffix taken)) ?_ sorts
          intro g member
          rcases List.mem_append.1 member with old | new
          · exact before g old
          · obtain ⟨rfl, valued⟩ := takeOption_given taken
            cases List.mem_singleton.1 new
            exact ⟨o, listed o _ value List.mem_cons_self, valued⟩
      · exact ih later (s := { s with extra := s.extra ++ [x] }) before sorts
      · rw [sortWords_text c placeOpen fuel text] at sorts
        exact ih (later.suffix (placeStep_suffix placeOpen text ws)) (by exact before) sorts

/-- What is given first stays first. -/
theorem sortWords_prepend (c : Command) (placeOpen : Bool) (fuel : Nat) (ws : List Word) (s : Sorted)
    (gs : List Given) : sortWords c placeOpen fuel ws { s with given := gs ++ s.given } =
      (sortWords c placeOpen fuel ws s).map fun r => { r with given := gs ++ r.given } := by
  induction fuel generalizing placeOpen ws s with
  | zero => cases ws <;> rfl
  | succ fuel ih =>
    cases ws with
    | nil => rfl
    | cons w ws =>
      rcases w.kinds with ⟨o, name, value, rfl⟩ | ⟨x, rfl⟩ | text
      · rw [sortWords, sortWords]
        cases takeOption c o name value ws with
        | error m => rfl
        | ok pair =>
          have next := ih placeOpen pair.2 { s with given := s.given ++ [pair.1] }
          simp only [← List.append_assoc] at next
          exact next
      · exact ih placeOpen ws { s with extra := s.extra ++ [x] }
      · rw [sortWords_text c placeOpen fuel text, sortWords_text c placeOpen fuel text]
        exact ih false _ { s with place := s.place.or _, extra := s.extra ++ _ }

/-- Each step reads at least one word. -/
theorem sortWords_fuel {c : Command} {placeOpen : Bool} {n m : Nat} {ws : List Word} (s : Sorted)
    (left : ws.length ≤ n) (right : ws.length ≤ m) :
    sortWords c placeOpen n ws s = sortWords c placeOpen m ws s := by
  induction n generalizing placeOpen m ws s with
  | zero =>
    obtain rfl : ws = [] := by simpa using left
    cases m <;> rfl
  | succ n ih =>
    cases ws with
    | nil => cases m <;> rfl
    | cons w ws =>
      obtain ⟨m, rfl⟩ : ∃ k, m = k + 1 := ⟨m - 1, by simp at right; omega⟩
      simp only [List.length_cons, Nat.add_le_add_iff_right] at left right
      rcases w.kinds with ⟨o, name, value, rfl⟩ | ⟨x, rfl⟩ | text
      · rw [sortWords, sortWords]
        cases taken : takeOption c o name value ws with
        | error e => rfl
        | ok pair =>
          have shorter := (takeOption_suffix taken).length_le
          exact ih _ (Nat.le_trans shorter left) (Nat.le_trans shorter right)
      · exact ih _ left right
      · have shorter := (placeStep_suffix placeOpen text ws).length_le
        rw [sortWords_text c placeOpen n text, sortWords_text c placeOpen m text]
        exact ih _ (Nat.le_trans shorter left) (Nat.le_trans shorter right)

theorem sorted_proper {c : Command} {args : List String} {r : Sorted}
    (sorts : sorted c args = .ok r) : ∀ g ∈ r.given, g.Proper c := by
  unfold sorted at sorts
  split at sorts
  · cases sorts
  · rename_i words
    exact sortWords_proper (s := {}) (Word.listed_all words) (by simp) sorts

/-- One more option in front of all other words is given first. -/
theorem sorted_option {c : Command} (added : List String) (o : Opt) (name : String)
    (value : Option String) (xs : List Word) {args : List String} {g : Given} {r : Sorted}
    (words : ∀ {ws}, Word.all c.options args = .ok ws →
      Word.all c.options (added ++ args) = .ok (.option o name value :: (xs ++ ws)))
    (taken : ∀ ws, takeOption c o name value (xs ++ ws) = .ok (g, ws))
    (sorts : sorted c args = .ok r) :
    sorted c (added ++ args) = .ok { r with given := g :: r.given } := by
  unfold sorted at sorts ⊢
  split at sorts
  · cases sorts
  · rename_i ws all
    rw [words all]
    simp only [List.length_cons]
    rw [sortWords, taken]
    change sortWords c true ((xs ++ ws).length + 1) ws { given := [g] } = _
    have behind := sortWords_prepend c true (ws.length + 1) ws {} [g]
    rw [sorts] at behind
    rw [sortWords_fuel (m := ws.length + 1) _ (by simp; omega) (by omega)]
    exact behind

theorem plan_names_plain : ∀ e ∈ Word.namesOf (Command.options .plan), '=' ∉ e.1.toList := by decide

section Added

variable {c : Command} {name value : String} {o : Opt} {args : List String} {r : Sorted}
  (listed : (Word.namesOf c.options).lookup name = some o)
  (fitting : withValue c o name value = .ok ⟨name, some value⟩)
  (hyphen : ∃ c cs, name.toList = '-' :: c :: cs)

include listed fitting hyphen

/-- An option with its value behind an equals sign. -/
theorem sorted_valued (names : ∀ e ∈ Word.namesOf c.options, '=' ∉ e.1.toList)
    (plain : '=' ∉ name.toList) (sorts : sorted c args = .ok r) :
    sorted c ((name ++ "=" ++ value) :: args) =
      .ok { r with given := ⟨name, some value⟩ :: r.given } := by
  have mark : name ++ "=" ++ value ≠ "--" := by
    intro same
    have letters := congrArg (fun s : String => '=' ∈ s.toList) same
    simp [String.toList_append] at letters
  refine sorted_option [name ++ "=" ++ value] o name (some value) [] ?_ ?_ sorts
  · intro ws all
    exact (Word.all_cons_iff mark).2 ⟨_, _, Word.of_valued names plain hyphen listed value, all, rfl⟩
  · intro ws
    simp only [takeOption, fitting]
    rfl

/-- An option with its value in the word behind it. -/
theorem sorted_spaced (mark : name ≠ "--") (takes : o.takes ≠ .nothing)
    (plain : value.toList.head? ≠ some '-') (sorts : sorted c args = .ok r) :
    sorted c (name :: value :: args) = .ok { r with given := ⟨name, some value⟩ :: r.given } := by
  have first : Word.of c.options name = .ok (.option o name none) := by
    obtain ⟨d, ds, letters⟩ := hyphen
    unfold Word.of Word.ofHyphen
    simp [letters, listed]
  have second := Word.of_plain c.options plain
  have apart : value ≠ "--" := by
    rintro rfl
    exact plain rfl
  refine sorted_option [name, value] o name none [.plain value] ?_ ?_ sorts
  · intro ws all
    exact (Word.all_cons_iff mark).2 ⟨_, _, first,
      (Word.all_cons_iff apart).2 ⟨_, _, second, all, rfl⟩, rfl⟩
  · intro ws
    rw [List.singleton_append, takeOption_of_takes takes]
    simp only [fitting]
    rfl

end Added

theorem lastValue?_cons {name : String} {g : Given} {gs : List Given}
    (absent : ∀ h ∈ gs, h.name ≠ name) (here : g.name = name) :
    lastValue? name (g :: gs) = g.value := by
  have later : gs.reverse.find? (fun h => h.name == name) = none := by
    simpa using absent
  simp [lastValue?, List.find?_append, later, here]

theorem lastValue?_cons_of_ne {name : String} {g : Given} (gs : List Given) (other : g.name ≠ name) :
    lastValue? name (g :: gs) = lastValue? name gs := by
  simp [lastValue?, List.find?_append, other]

theorem lastSwitch?_cons_of_ne {on off : String} {g : Given} (gs : List Given) (notOn : g.name ≠ on)
    (notOff : g.name ≠ off) : lastSwitch? on off (g :: gs) = lastSwitch? on off gs := by
  simp [lastSwitch?, List.find?_append, notOn, notOff]

theorem absent_of_lastValue? {name : String} {gs : List Given} (none_ : lastValue? name gs = none)
    (valued : ∀ g ∈ gs, g.name = name → g.value.isSome = true) : ∀ g ∈ gs, g.name ≠ name := by
  unfold lastValue? at none_
  cases found : gs.reverse.find? (fun g => g.name == name) with
  | none => simpa using found
  | some g =>
    have member : g ∈ gs := by simpa using List.mem_of_find?_eq_some found
    have same : g.name = name := by simpa using List.find?_some found
    have there := valued g member same
    rw [found, Option.bind_some] at none_
    rw [none_] at there
    cases there

/-! The whole line. -/

/-- What the words in front of a command and those behind it come to. -/
def invocation (s : Opening) (c : Command) (inner : Sorted) : Invocation where
  logLevel := (lastValue? "--log-level" s.given).getD "WARNING"
  logForm := logFormOf s.given
  source := (taskOf c inner).1
  task := (taskOf c inner).2

theorem read_eq_ok_iff {args : List String} {i : Invocation} :
    read args = .ok i ↔ ∃ ws s word c inner, Word.all (Command.options .top) args = .ok ws ∧
      openingOf (ws.length + 1) ws args {} = .ok s ∧ s.word = some word ∧
      Command.words.lookup word = some c ∧ sorted c s.behind = .ok inner ∧
      s.extra ++ inner.extra = [] ∧ i = invocation s c inner := by
  unfold read
  cases words : Word.all (Command.options .top) args with
  | error m => simp
  | ok ws =>
    cases opened : openingOf (ws.length + 1) ws args {} with
    | error m => simp [bind, Except.bind, opened]
    | ok s =>
      cases found : s.word with
      | none => simp [bind, Except.bind, opened, found]
      | some word =>
        cases command : Command.words.lookup word with
        | none => simp [bind, Except.bind, opened, found, command]
        | some c =>
          cases sorts : sorted c s.behind with
          | error m => simp [bind, Except.bind, opened, found, command, sorts]
          | ok inner =>
            by_cases extra : s.extra = [] ∧ inner.extra = []
            · simp [bind, Except.bind, opened, found, command, sorts, extra, invocation, eq_comm]
            · simp [bind, Except.bind, opened, found, command, sorts, extra]

/-- Words can be added directly behind the command. -/
theorem exists_read_added {args : List String} {i : Invocation} (reads : read args = .ok i) :
    ∃ front word behind s c inner, args = front ++ word :: behind ∧
      Command.words.lookup word = some c ∧ i = invocation s c inner ∧ sorted c behind = .ok inner ∧
      ∀ added inner', (∀ {args ws}, Word.all (Command.options .top) args = .ok ws →
          ∃ vs, Word.all (Command.options .top) (added ++ args) = .ok vs) →
        sorted c (added ++ behind) = .ok inner' → inner'.extra = inner.extra →
        read (front ++ word :: (added ++ behind)) = .ok (invocation s c inner') := by
  obtain ⟨ws, s, word, c, inner, words, opened, found, command, sorts, extra, same⟩ :=
    read_eq_ok_iff.1 reads
  have proper : word ≠ "--" := by
    rintro rfl
    cases command
  obtain ⟨front, alike⟩ := exists_readAlike words opened rfl found proper
  refine ⟨front, word, s.behind, s, c, inner, alike.parts, command, same, sorts, ?_⟩
  intro added inner' more longer kept
  obtain ⟨vs, all⟩ := alike.words
  obtain ⟨vs', all'⟩ := more all
  obtain ⟨ws', words', opens⟩ := alike.opens (added ++ s.behind) vs' all'
  have length : ws.length + 1 ≤ ws'.length + 1 := by
    have parts := congrArg List.length alike.parts
    rw [Word.length_all words, Word.length_all words', parts]
    simp
  refine read_eq_ok_iff.2 ⟨ws', _, word, c, inner', words', opens _ length, found, command, longer, ?_,
    rfl⟩
  rw [kept]
  exact extra

end NamespacePlan.CommandLine
