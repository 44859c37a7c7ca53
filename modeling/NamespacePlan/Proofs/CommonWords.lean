import NamespacePlan.Proofs.CommandFlags

/-! Command lines of the two commands with the same words behind them. What the one command reads is
what the other one reads, and switches of a plan around the words change nothing else. -/
namespace NamespacePlan.CommandLine

/-! Options behind other words. -/

/-- Words that go on with no text, if they go on. -/
def Closed (tail : List Word) : Prop := ∀ w ∈ tail.head?, ¬w.IsText

theorem closed_flags (fs : List Flag) : Closed (fs.map Flag.option) := by
  cases fs with
  | nil => exact fun _ none => nomatch none
  | cons f fs =>
    rintro _ ⟨⟩
    exact id

section Tail

variable {tail : List Word} (closed : Closed tail)

include closed

theorem plainRun_append (ws : List Word) :
    plainRun (ws ++ tail) = ((plainRun ws).1, (plainRun ws).2 ++ tail) := by
  induction ws with
  | nil =>
    cases tail with
    | nil => rfl
    | cons w tail =>
      cases w with
      | option o name value => rfl
      | unknown x => rfl
      | _ => exact absurd trivial (closed _ rfl)
  | cons w ws ih => cases w <;> simp [plainRun, ih]

theorem firstPlain_append (ws : List Word) :
    firstPlain (ws ++ tail) = ((firstPlain ws).1, (firstPlain ws).2 ++ tail) := by
  have alone : firstPlain tail = (none, tail) ∧ firstPlain (.mark :: tail) = (none, tail) ∧
      ∀ x, firstPlain (.plain x :: tail) = (some x, tail) := by
    cases tail with
    | nil => exact ⟨rfl, rfl, fun _ => rfl⟩
    | cons w tail =>
      cases w with
      | option o name value => exact ⟨rfl, rfl, fun _ => rfl⟩
      | unknown x => exact ⟨rfl, rfl, fun _ => rfl⟩
      | _ => exact absurd trivial (closed _ rfl)
  obtain ⟨none, behindMark, behindPlain⟩ := alone
  rcases ws with _ | ⟨w, _ | ⟨v, ws⟩⟩
  · exact none
  · cases w with
    | mark => exact behindMark
    | plain x => exact behindPlain x
    | _ => rfl
  · cases w <;> cases v <;> rfl

theorem placeStep_append (placeOpen : Bool) (ws : List Word) :
    placeStep placeOpen (ws ++ tail) = ((placeStep placeOpen ws).1, (placeStep placeOpen ws).2.1,
      (placeStep placeOpen ws).2.2 ++ tail) := by
  cases placeOpen <;> simp [placeStep, firstPlain_append closed, plainRun_append closed]

theorem takeOption_append (c : Command) (o : Opt) (name : String) (value : Option String)
    (ws : List Word) : takeOption c o name value (ws ++ tail) =
      (takeOption c o name value ws).map fun r => (r.1, r.2 ++ tail) := by
  cases value with
  | some v =>
    simp only [takeOption]
    cases withValue c o name v <;> rfl
  | none =>
    by_cases takes : o.takes = .nothing
    · simp only [takeOption, takes]
      cases withoutValue c o name <;> rfl
    · simp only [takeOption_of_takes takes]
      rcases ws with _ | ⟨_ | _ | _ | _, ws⟩
      · -- no text follows that could be the value
        rcases tail with _ | ⟨_ | _ | _ | _, tail⟩
        · rfl
        · exact absurd trivial (closed _ rfl)
        · rfl
        · rfl
        · rfl
      · simp only [List.cons_append]
        cases withValue c o name _ <;> rfl
      all_goals rfl

end Tail

/-- Flags behind other words are given last. -/
theorem sortWords_append {fs : List Flag} (known : ∀ f ∈ fs, f.Known) {fuel : Nat} {ws : List Word}
    (enough : ws.length ≤ fuel) (placeOpen : Bool) (s : Sorted) :
    sortWords .plan placeOpen (fuel + fs.length) (ws ++ fs.map Flag.option) s =
      (sortWords .plan placeOpen fuel ws s).map fun r =>
        { r with given := r.given ++ fs.map Flag.given } := by
  have closed := closed_flags fs
  have alone : ∀ fuel placeOpen s, sortWords .plan placeOpen (fuel + fs.length) (fs.map Flag.option) s =
      .ok { s with given := s.given ++ fs.map Flag.given } := by
    intro fuel placeOpen s
    have all := sortWords_flags placeOpen known fuel [] s
    rw [List.append_nil] at all
    rw [all]
    cases fuel <;> rfl
  induction fuel generalizing placeOpen ws s with
  | zero =>
    obtain rfl : ws = [] := by simpa using enough
    exact alone 0 placeOpen s
  | succ fuel ih =>
    cases ws with
    | nil => exact alone (fuel + 1) placeOpen s
    | cons w ws =>
      rw [List.length_cons, Nat.add_le_add_iff_right] at enough
      rw [Nat.add_right_comm, List.cons_append]
      rcases w.kinds with ⟨o, name, value, rfl⟩ | ⟨x, rfl⟩ | text
      · rw [sortWords, sortWords, takeOption_append closed]
        cases taken : takeOption .plan o name value ws with
        | error e => rfl
        | ok pair =>
          have shorter := (takeOption_suffix taken).length_le
          exact ih (Nat.le_trans shorter enough) placeOpen { s with given := s.given ++ [pair.1] }
      · exact ih enough placeOpen { s with extra := s.extra ++ [x] }
      · have shorter := (placeStep_suffix placeOpen text ws).length_le
        rw [sortWords_text _ placeOpen _ text, sortWords_text _ placeOpen _ text,
          ← List.cons_append, placeStep_append closed]
        exact ih (Nat.le_trans shorter enough) false _

/-! The same words behind another command. -/

/-- The same stop at a command. -/
def Stop.under (c : Command) : Stop → Stop
  | help _ => help c
  | misuse _ m => misuse c m

theorem takeOption_under (c c' : Command) (o : Opt) (name : String) (value : Option String)
    (ws : List Word) :
    takeOption c' o name value ws = (takeOption c o name value ws).mapError (Stop.under c') := by
  have valued : ∀ v (vs : List Word), (withValue c' o name v).map (·, vs) =
      ((withValue c o name v).map (·, vs)).mapError (Stop.under c') := by
    intro v vs
    unfold withValue
    cases o.takes with
    | oneOf choices => by_cases listed : choices.contains v = true <;> simp only [listed] <;> rfl
    | _ => rfl
  cases value with
  | some v =>
    simp only [takeOption]
    exact valued v ws
  | none =>
    by_cases takes : o.takes = .nothing
    · simp only [takeOption, takes, withoutValue]
      by_cases help : o = helpOption <;> simp only [help] <;> rfl
    · simp only [takeOption_of_takes takes]
      rcases ws with _ | ⟨_ | _ | _ | _, ws⟩
      · rfl
      · exact valued _ ws
      all_goals rfl

theorem sortWords_under (c c' : Command) (placeOpen : Bool) (fuel : Nat) (ws : List Word)
    (s : Sorted) : sortWords c' placeOpen fuel ws s =
      (sortWords c placeOpen fuel ws s).mapError (Stop.under c') := by
  induction fuel generalizing placeOpen ws s with
  | zero => cases ws <;> rfl
  | succ fuel ih =>
    cases ws with
    | nil => rfl
    | cons w ws =>
      rcases w.kinds with ⟨o, name, value, rfl⟩ | ⟨x, rfl⟩ | text
      · rw [sortWords, sortWords, takeOption_under c c']
        cases takeOption c o name value ws with
        | error e => rfl
        | ok pair => exact ih placeOpen pair.2 _
      · exact ih placeOpen ws _
      · rw [sortWords_text c placeOpen fuel text, sortWords_text c' placeOpen fuel text]
        exact ih false _ _

namespace Word

variable {os : List Opt} {args more : List String}

theorem all_append {ws vs : List Word} (unmarked : "--" ∉ args) (first : all os args = .ok ws)
    (second : all os more = .ok vs) : all os (args ++ more) = .ok (ws ++ vs) := by
  induction args generalizing ws with
  | nil =>
    cases first
    exact second
  | cons s rest ih =>
    rw [List.mem_cons, not_or] at unmarked
    have proper := Ne.symm unmarked.1
    obtain ⟨w, ws, here, later, rfl⟩ := (all_cons_iff proper).1 first
    exact (all_cons_iff proper).2 ⟨w, _, here, ih unmarked.2 later, rfl⟩

/-- A word that can mean several options is refused, whatever stands around it. -/
theorem all_append_error {m : Misuse} (failed : all os args = .error m) (more : List String) :
    all os (args ++ more) = .error m := by
  induction args with
  | nil => cases failed
  | cons s rest ih =>
    rw [all] at failed
    rw [List.cons_append, all]
    split at failed
    · cases failed
    · next proper =>
      rw [if_neg proper]
      cases here : of os s with
      | error m' =>
        rw [here] at failed
        exact failed
      | ok w =>
        rw [here] at failed
        cases later : all os rest with
        | ok ws =>
          rw [later] at failed
          cases failed
        | error m' =>
          rw [later] at failed
          cases failed
          rw [ih later]

theorem exists_all_error {m : Misuse} (front : List String) (unmarked : "--" ∉ front)
    (failed : all os args = .error m) : ∃ m', all os (front ++ args) = .error m' := by
  induction front with
  | nil => exact ⟨m, failed⟩
  | cons s front ih =>
    rw [List.mem_cons, not_or] at unmarked
    obtain ⟨m', later⟩ := ih unmarked.2
    rw [List.cons_append, all, if_neg (Ne.symm unmarked.1), later]
    cases of os s with
    | error m'' => exact ⟨m'', rfl⟩
    | ok w => exact ⟨m', rfl⟩

end Word

/-! The help. -/

theorem takeOption_help {c d : Command} {o : Opt} {name : String} {value : Option String}
    {ws : List Word} (asks : takeOption c o name value ws = .error (.help d)) : o = helpOption := by
  have valued : ∀ {v} {vs : List Word}, (withValue c o name v).map (·, vs) ≠ .error (.help d) := by
    intro v vs stops
    unfold withValue at stops
    split at stops
    · cases stops
    · cases stops
    · split at stops <;> cases stops
  cases value with
  | some v =>
    simp only [takeOption] at asks
    exact absurd asks valued
  | none =>
    by_cases takes : o.takes = .nothing
    · simp only [takeOption, takes, withoutValue] at asks
      split at asks
      · assumption
      · cases asks
    · rw [takeOption_of_takes takes] at asks
      split at asks
      · exact absurd asks valued
      · cases asks

theorem sortWords_help {c d : Command} {placeOpen : Bool} {fuel : Nat} {ws : List Word} {s : Sorted}
    (asks : sortWords c placeOpen fuel ws s = .error (.help d)) :
    ∃ name value, .option helpOption name value ∈ ws := by
  induction fuel generalizing placeOpen ws s with
  | zero => cases ws <;> cases asks
  | succ fuel ih =>
    cases ws with
    | nil => cases asks
    | cons w ws =>
      have later : ∀ {rest placeOpen s}, rest <:+ ws →
          sortWords c placeOpen fuel rest s = .error (.help d) →
          ∃ name value, .option helpOption name value ∈ w :: ws := by
        intro rest placeOpen s ending stops
        obtain ⟨name, value, member⟩ := ih stops
        exact ⟨name, value, List.mem_cons_of_mem w (ending.subset member)⟩
      rcases w.kinds with ⟨o, name, value, rfl⟩ | ⟨x, rfl⟩ | text
      · rw [sortWords] at asks
        cases taken : takeOption c o name value ws with
        | error e =>
          rw [taken] at asks
          cases asks
          obtain rfl := takeOption_help taken
          exact ⟨name, value, List.mem_cons_self⟩
        | ok pair =>
          rw [taken] at asks
          exact later (takeOption_suffix taken) asks
      · exact later (List.suffix_refl ws) asks
      · rw [sortWords_text c placeOpen fuel text] at asks
        exact later (placeStep_suffix placeOpen text ws) asks

/-! Whole lines. -/

section Line

variable (word : String) {c : Command} {behind : List String} (proper : word ≠ "--")
  (first : Word.of (Command.options .top) word = .ok (.plain word))

include proper first

theorem read_command (command : Command.words.lookup word = some c) {ws : List Word}
    (words : Word.all (Command.options .top) behind = .ok ws) : read (word :: behind) =
      match sorted c behind with
      | .error s => .error s
      | .ok inner =>
        if inner.extra = [] then .ok (invocation {} c inner)
        else .error (.misuse .top (.unrecognized inner.extra)) := by
  have all := (Word.all_cons_iff proper).2 ⟨_, _, first, words, rfl⟩
  have opened : openingOf ((Word.plain word :: ws).length + 1) (.plain word :: ws) (word :: behind) {} =
      .ok { word := some word, behind := behind } := rfl
  simp only [read, all, bind, Except.bind, opened, command]
  cases sorted c behind with
  | error s => rfl
  | ok inner => cases extra : inner.extra <;> simp [extra, invocation]

theorem read_ambiguous {m : Misuse} (failed : Word.all (Command.options .top) behind = .error m) :
    read (word :: behind) = .error (.misuse .top m) := by
  have all : Word.all (Command.options .top) (word :: behind) = .error m := by
    rw [Word.all, if_neg proper, first, failed]
  simp only [read, all]

end Line

/-! Words that the commands have in common. -/

/-- Words that mean the same to both commands, and none of which asks for help. -/
structure Common (args : List String) : Prop where
  alike : Word.all (Command.options .namespaces) args = Word.all (Command.options .plan) args
  unhelped : ∀ ws, Word.all (Command.options .namespaces) args = .ok ws →
    ∀ name value, .option helpOption name value ∉ ws

/-- A switch of a plan, or the format that is taken anyway. -/
def Flag.Switch : Flag → Prop
  | optimize _ | strict _ => True
  | format s => s = "json"
  | _ => False

theorem Flag.Switch.known {f : Flag} (switch : f.Switch) : f.Known := by
  cases f with
  | format s => exact List.mem_cons.2 (.inl switch)
  | _ => trivial

/-- What switches ask for: the last of each kind counts. -/
def Flag.options (fs : List Flag) : PlanOptions where
  optimize := (fs.filterMap optimize?).getLast?
  strict := (fs.filterMap strict?).getLast?

/-- The words of a plan: the common ones, and switches around them. -/
def aroundCommon (front : List Flag) (args : List String) (back : List Flag) : List String :=
  front.map Flag.word ++ (args ++ back.map Flag.word)

section Around

variable {front back : List Flag} {args : List String}
  (switches : ∀ f ∈ front ++ back, f.Switch) (behind : back = [] ∨ "--" ∉ args)

include behind

theorem all_args_back {os : List Opt} {ws vs : List Word} (first : Word.all os args = .ok ws)
    (second : Word.all os (back.map Flag.word) = .ok vs) :
    Word.all os (args ++ back.map Flag.word) = .ok (ws ++ vs) := by
  rcases behind with rfl | unmarked
  · cases second
    simpa using first
  · exact Word.all_append unmarked first second

theorem exists_all_around {ws : List Word} (words : Word.all (Command.options .top) args = .ok ws) :
    ∃ vs, Word.all (Command.options .top) (aroundCommon front args back) = .ok vs := by
  have nothing : Word.all (Command.options .top) [] = .ok [] := rfl
  obtain ⟨vs, last⟩ := Word.exists_all_flags back nothing
  rw [List.append_nil] at last
  exact Word.exists_all_flags front (all_args_back behind words last)

include switches

/-- Switches around other words are given around what these give. -/
theorem sorted_around {ws : List Word} (words : Word.all (Command.options .plan) args = .ok ws) :
    sorted .plan (aroundCommon front args back) =
      (sorted .plan args).map fun r =>
        { r with given := front.map Flag.given ++ (r.given ++ back.map Flag.given) } := by
  have first : ∀ f ∈ front, f.Known := fun f member =>
    (switches f (List.mem_append_left _ member)).known
  have last : ∀ f ∈ back, f.Known := fun f member =>
    (switches f (List.mem_append_right _ member)).known
  have nothing : Word.all (Command.options .plan) [] = .ok [] := rfl
  have ending := Word.all_flags back nothing
  rw [List.append_nil, List.append_nil] at ending
  have all := Word.all_flags front (all_args_back behind words ending)
  have fuel : (front.map Flag.option ++ (ws ++ back.map Flag.option)).length + 1 =
      ws.length + 1 + back.length + front.length := by
    simp only [List.length_append, List.length_map]
    omega
  have started := sortWords_prepend .plan true (ws.length + 1) ws {} (front.map Flag.given)
  have whole : sorted .plan (aroundCommon front args back) =
      sortWords .plan true (ws.length + 1 + back.length + front.length)
        (front.map Flag.option ++ (ws ++ back.map Flag.option)) {} := by
    rw [sorted, aroundCommon, all, ← fuel]
  have own : sorted .plan args = sortWords .plan true (ws.length + 1) ws {} := by
    rw [sorted, words]
  rw [whole, own, sortWords_flags true first,
    sortWords_append last (Nat.le_succ ws.length) true]
  simp only [List.append_nil, List.nil_append] at started ⊢
  rw [started]
  cases sortWords .plan true (ws.length + 1) ws {} with
  | error s => rfl
  | ok r => simp [Except.map]

end Around

/-! What is given last. -/

section Given

variable {gs hs ks : List Given}

theorem lastValue?_middle {name : String} (absent : ∀ g ∈ gs ++ ks, g.name ≠ name) :
    lastValue? name (gs ++ (hs ++ ks)) = lastValue? name hs := by
  have before : gs.reverse.find? (·.name == name) = none := by
    simpa using fun g member => absent g (List.mem_append_left _ member)
  have after : ks.reverse.find? (·.name == name) = none := by
    simpa using fun g member => absent g (List.mem_append_right _ member)
  simp [lastValue?, List.find?_append, before, after]

theorem lastValue?_around {name : String} (absent : ∀ g ∈ hs, g.name ≠ name) :
    lastValue? name (gs ++ (hs ++ ks)) = lastValue? name (gs ++ ks) := by
  have between : hs.reverse.find? (·.name == name) = none := by simpa using absent
  simp [lastValue?, List.find?_append, between]

theorem lastSwitch?_around {on off : String} (notOn : ∀ g ∈ hs, g.name ≠ on)
    (notOff : ∀ g ∈ hs, g.name ≠ off) :
    lastSwitch? on off (gs ++ (hs ++ ks)) = lastSwitch? on off (gs ++ ks) := by
  have between : hs.reverse.find? (fun g => g.name == on || g.name == off) = none := by
    simpa using fun g member => ⟨notOn g member, notOff g member⟩
  simp [lastSwitch?, List.find?_append, between]

end Given

/-- The names of the options that both commands have. -/
def commonNames : List String := (Word.namesOf (Command.options .namespaces)).map Prod.fst

theorem Given.Proper.name_mem {g : Given} (proper : g.Proper .namespaces) : g.name ∈ commonNames := by
  obtain ⟨o, listed, _⟩ := proper
  exact List.mem_map_of_mem (f := Prod.fst) listed

theorem Flag.Switch.name_not_mem {f : Flag} (switch : f.Switch) : f.given.name ∉ commonNames := by
  cases f with
  | optimize b => cases b <;> decide
  | strict b => cases b <;> decide
  | format s => exact (by decide : "--format" ∉ commonNames)
  | _ => cases switch

theorem format_switches {fs : List Flag} (switches : ∀ f ∈ fs, f.Switch) :
    (fs.filterMap Flag.format?).getLast? ≠ some "yaml" := by
  intro last
  obtain ⟨f, listed, same⟩ := List.mem_filterMap.1 (List.mem_of_getLast? last)
  have switch := switches f listed
  cases f <;> cases same
  exact absurd switch (by decide : "yaml" ≠ "json")

theorem taskOf_around {front back : List Flag} (switches : ∀ f ∈ front ++ back, f.Switch)
    {r : Sorted} (proper : ∀ g ∈ r.given, g.Proper .namespaces) :
    taskOf .plan { r with given := front.map Flag.given ++ (r.given ++ back.map Flag.given) } =
      ((taskOf .namespaces r).1, .plan (Flag.options (front ++ back))) := by
  have own : ∀ name ∈ commonNames,
      lastValue? name (front.map Flag.given ++ (r.given ++ back.map Flag.given)) =
        lastValue? name r.given := by
    intro name common
    refine lastValue?_middle ?_
    rw [← List.map_append]
    rintro g member rfl
    obtain ⟨f, listed, rfl⟩ := List.mem_map.1 member
    exact (switches f listed).name_not_mem common
  have inner : ∀ name ∉ commonNames, ∀ g ∈ r.given, g.name ≠ name := by
    rintro name other g member rfl
    exact other (proper g member).name_mem
  have value : ∀ name ∉ commonNames,
      lastValue? name (front.map Flag.given ++ (r.given ++ back.map Flag.given)) =
        lastValue? name ((front ++ back).map Flag.given) := by
    intro name other
    rw [lastValue?_around (inner name other), List.map_append]
  have switch : ∀ on ∉ commonNames, ∀ off ∉ commonNames,
      lastSwitch? on off (front.map Flag.given ++ (r.given ++ back.map Flag.given)) =
        lastSwitch? on off ((front ++ back).map Flag.given) := by
    intro on other off other'
    rw [lastSwitch?_around (inner on other) (inner off other'), List.map_append]
  have flags := taskOf_flags (front ++ back) none
  simp only [taskOf, Flag.invocation, Prod.mk.injEq, Task.plan.injEq, PlanOptions.mk.injEq,
    if_neg (format_switches switches)] at flags
  obtain ⟨_, optimize, strict, format, output⟩ := flags
  simp only [taskOf, own "--root" (by decide), own "--config" (by decide),
    value "--format" (by decide), value "--output" (by decide),
    switch "--optimize" (by decide) "--no-optimize" (by decide),
    switch "--strict" (by decide) "--no-strict" (by decide), optimize, strict, format, output,
    Flag.options]

/-! Both lines. -/

/-- Either both lines are read, and differ in their tasks only, or both are misuses. -/
inductive ReadBoth (args : List String) (front back : List Flag) : Prop
  | read {i : Invocation} (reads : read ("namespaces" :: args) = .ok i) (task : i.task = .namespaces)
      (reads' : read ("plan" :: aroundCommon front args back) =
        .ok { i with task := .plan (Flag.options (front ++ back)) }) : ReadBoth args front back
  | misuse {c c' : Command} {m m' : Misuse} (stops : read ("namespaces" :: args) = .error (.misuse c m))
      (stops' : read ("plan" :: aroundCommon front args back) = .error (.misuse c' m')) :
      ReadBoth args front back

theorem read_common {args : List String} (common : Common args) {front back : List Flag}
    (switches : ∀ f ∈ front ++ back, f.Switch) (behind : back = [] ∨ "--" ∉ args) :
    ReadBoth args front back := by
  have unmarked : "--" ∉ front.map Flag.word := by
    intro member
    obtain ⟨f, _, same⟩ := List.mem_map.1 member
    exact Word.flag_ne_mark f same
  have ambiguous : ∀ {os m}, Word.all os args = .error m →
      ∃ m', Word.all os (aroundCommon front args back) = .error m' := fun failed =>
    Word.exists_all_error _ unmarked (Word.all_append_error failed _)
  cases words : Word.all (Command.options .top) args with
  | error m =>
    obtain ⟨m', words'⟩ := ambiguous words
    exact .misuse (read_ambiguous _ (by decide) rfl words) (read_ambiguous _ (by decide) rfl words')
  | ok ws =>
    obtain ⟨ws', words'⟩ : ∃ vs, Word.all (Command.options .top) (aroundCommon front args back) =
        .ok vs := exists_all_around behind words
    have line := read_command "namespaces" (by decide) rfl rfl words
    have line' := read_command "plan" (by decide) rfl rfl words'
    cases own : Word.all (Command.options .namespaces) args with
    | error m =>
      obtain ⟨m', own'⟩ := ambiguous (common.alike ▸ own)
      rw [sorted, own] at line
      rw [sorted, own'] at line'
      exact .misuse line line'
    | ok vs =>
      have own' : Word.all (Command.options .plan) args = .ok vs := common.alike ▸ own
      have plan : sorted .plan args = (sorted .namespaces args).mapError (Stop.under .plan) := by
        rw [sorted, sorted, own, own']
        exact sortWords_under .namespaces .plan true _ vs {}
      have around := sorted_around switches behind own'
      rw [plan] at around
      cases sorts : sorted .namespaces args with
      | error s =>
        rw [sorts] at line around
        rw [around] at line'
        cases s with
        | help d =>
          rw [sorted, own] at sorts
          obtain ⟨name, value, member⟩ := sortWords_help sorts
          exact absurd member (common.unhelped vs own name value)
        | misuse d m => exact .misuse line line'
      | ok r =>
        rw [sorts] at line around
        rw [around] at line'
        simp only [Except.mapError, Except.map] at line line'
        by_cases extra : r.extra = []
        · rw [if_pos extra] at line line'
          refine .read line rfl ?_
          have tasks := taskOf_around switches (sorted_proper sorts)
          rw [line', invocation, tasks]
          rfl
        · rw [if_neg extra] at line line'
          exact .misuse line line'

/-- A directory, a root or a configuration, in one word or in two. -/
inductive CommonWord : String → Prop
  | plain {s : String} (plain : s.toList.head? ≠ some '-') : CommonWord s
  | root : CommonWord "--root"
  | config : CommonWord "--config"
  | rootValue (s : String) : CommonWord ("--root" ++ "=" ++ s)
  | configValue (path : String) : CommonWord ("--config" ++ "=" ++ path)

theorem namespaces_names_plain :
    ∀ e ∈ Word.namesOf (Command.options .namespaces), '=' ∉ e.1.toList := by decide

theorem CommonWord.of_both {s : String} (common : CommonWord s) : s ≠ "--" ∧ ∃ w,
    Word.of (Command.options .namespaces) s = .ok w ∧ Word.of (Command.options .plan) s = .ok w ∧
      ∀ name value, w ≠ .option helpOption name value := by
  have valued : ∀ name value : String, '=' ∉ name.toList → name ++ "=" ++ value ≠ "--" := by
    intro name value _ same
    have letters := congrArg (fun s : String => '=' ∈ s.toList) same
    simp [String.toList_append] at letters
  have valuedOption : ∀ {o : Opt} {name : String} {value : Option String}, o.takes = .value →
      ∀ n v, Word.option o name value ≠ .option helpOption n v := by
    intro o name value takes n v same
    rw [(Word.option.inj same).1] at takes
    cases takes
  cases common with
  | plain plain =>
    refine ⟨?_, _, Word.of_plain _ plain, Word.of_plain _ plain, fun _ _ => nofun⟩
    rintro rfl
    exact plain rfl
  | root => exact ⟨by decide, _, rfl, rfl, valuedOption rfl⟩
  | config => exact ⟨by decide, _, rfl, rfl, valuedOption rfl⟩
  | rootValue s =>
    exact ⟨valued "--root" s (by decide), _,
      Word.of_valued namespaces_names_plain (by decide) ⟨'-', _, rfl⟩ rfl s,
      Word.of_valued plan_names_plain (by decide) ⟨'-', _, rfl⟩ rfl s, valuedOption rfl⟩
  | configValue path =>
    exact ⟨valued "--config" path (by decide), _,
      Word.of_valued namespaces_names_plain (by decide) ⟨'-', _, rfl⟩ rfl path,
      Word.of_valued plan_names_plain (by decide) ⟨'-', _, rfl⟩ rfl path, valuedOption rfl⟩

theorem common_of_words {args : List String} (each : ∀ s ∈ args, CommonWord s) : Common args := by
  have both : ∃ ws, Word.all (Command.options .namespaces) args = .ok ws ∧
      Word.all (Command.options .plan) args = .ok ws ∧
      ∀ name value, .option helpOption name value ∉ ws := by
    induction args with
    | nil => exact ⟨[], rfl, rfl, by simp⟩
    | cons s rest ih =>
      obtain ⟨mark, w, first, first', other⟩ := (each s List.mem_cons_self).of_both
      obtain ⟨ws, later, later', unhelped⟩ := ih fun s member => each s (List.mem_cons_of_mem _ member)
      refine ⟨w :: ws, (Word.all_cons_iff mark).2 ⟨w, ws, first, later, rfl⟩,
        (Word.all_cons_iff mark).2 ⟨w, ws, first', later', rfl⟩, fun name value member => ?_⟩
      rcases List.mem_cons.1 member with rfl | inside
      · exact other name value rfl
      · exact unhelped name value inside
  obtain ⟨ws, words, words', unhelped⟩ := both
  refine ⟨words.trans words'.symm, fun vs again => ?_⟩
  cases words.symm.trans again
  exact unhelped

end NamespacePlan.CommandLine
