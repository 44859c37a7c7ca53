import Mathlib.Data.List.Induction
import NamespacePlan.Proofs.CommandWords

/-! Command lines that are made of flags, in any order and as often as one likes. What they ask for is
told by the last flag of each kind. -/
namespace NamespacePlan.CommandLine

/-- What can be given to a plan whose result is printed. -/
inductive Flag where
  | root (s : String)
  | config (path : String)
  | optimize (b : Bool)
  | strict (b : Bool)
  | format (s : String)
  deriving DecidableEq, Repr

namespace Flag

/-- The option that is meant. -/
def opt : Flag → Opt
  | root _ => ⟨["--root"], .value⟩
  | config _ => ⟨["--config"], .value⟩
  | optimize _ => ⟨["--optimize", "--no-optimize"], .nothing⟩
  | strict _ => ⟨["--strict", "--no-strict"], .nothing⟩
  | format _ => ⟨["--format"], .oneOf ["json", "yaml"]⟩

def given : Flag → Given
  | root s => ⟨"--root", some s⟩
  | config path => ⟨"--config", some path⟩
  | optimize b => ⟨if b then "--optimize" else "--no-optimize", none⟩
  | strict b => ⟨if b then "--strict" else "--no-strict", none⟩
  | format s => ⟨"--format", some s⟩

/-- The flag as one word of the command line. -/
def word (f : Flag) : String :=
  match f.given.value with
  | none => f.given.name
  | some value => f.given.name ++ "=" ++ value

/-- Only the formats there are can be asked for. -/
def Known : Flag → Prop
  | format s => s ∈ ["json", "yaml"]
  | _ => True

def root? : Flag → Option String
  | root s => some s
  | _ => none

def config? : Flag → Option String
  | config path => some path
  | _ => none

def optimize? : Flag → Option Bool
  | optimize b => some b
  | _ => none

def strict? : Flag → Option Bool
  | strict b => some b
  | _ => none

def format? : Flag → Option String
  | format s => some s
  | _ => none

/-- What flags and perhaps a directory ask for: the last of each kind counts. -/
def invocation (fs : List Flag) (directory : Option String) : Invocation where
  source :=
    { schemaDir := directory
      root := (fs.filterMap root?).getLast?
      config := (fs.filterMap config?).getLast? }
  task := .plan
    { optimize := (fs.filterMap optimize?).getLast?
      strict := (fs.filterMap strict?).getLast?
      format := if (fs.filterMap format?).getLast? = some "yaml" then .yaml else .json }

end Flag

/-! The last of a kind. -/

theorem find?_reverse_bind {α β : Type} {p : α → Bool} {v : α → Option β} {as : List α}
    (valued : ∀ a ∈ as, p a = true → (v a).isSome = true) :
    (as.reverse.find? p).bind v = (as.filterMap fun a => if p a then v a else none).getLast? := by
  induction as using List.reverseRecOn with
  | nil => rfl
  | append_singleton as a ih =>
    have own := valued a (by simp)
    rw [List.reverse_append, List.reverse_singleton, List.singleton_append, List.find?_cons,
      List.filterMap_append]
    by_cases kind : p a = true
    · obtain ⟨b, value⟩ := Option.isSome_iff_exists.1 (own kind)
      simp [kind, value]
    · simp [kind, ih fun x member => valued x (by simp [member])]

section Last

variable {fs : List Flag}

/-- What is picked of each flag, if the flag has the name, is its value. -/
theorem lastValue?_flags {name : String} {pick : Flag → Option String}
    (own : ∀ f : Flag, (if f.given.name == name then some f.given.value else none) =
      (pick f).map some) :
    lastValue? name (fs.map Flag.given) = (fs.filterMap pick).getLast? := by
  have picked : ∀ f : Flag, (if f.given.name == name then f.given.value else none) = pick f := by
    intro f
    have same := congrArg Option.join (own f)
    rw [apply_ite Option.join] at same
    cases given : pick f <;> simpa [given] using same
  rw [lastValue?, find?_reverse_bind, List.filterMap_map]
  · exact congrArg (fun g => (fs.filterMap g).getLast?) (funext picked)
  · intro g member kind
    obtain ⟨f, _, rfl⟩ := List.mem_map.1 member
    have same := own f
    rw [if_pos kind] at same
    obtain ⟨v, _, value⟩ := Option.map_eq_some_iff.1 same.symm
    rw [← value]
    rfl

theorem lastSwitch?_flags {on off : String} {pick : Flag → Option Bool}
    (own : ∀ f : Flag, (if f.given.name == on || f.given.name == off then some (f.given.name == on)
      else none) = pick f) :
    lastSwitch? on off (fs.map Flag.given) = (fs.filterMap pick).getLast? := by
  rw [lastSwitch?, Option.map_eq_bind, find?_reverse_bind, List.filterMap_map]
  · exact congrArg (fun g => (fs.filterMap g).getLast?) (funext own)
  · exact fun _ _ _ => rfl

end Last

/-! The words. -/

/-- The flag as one of the options of a plan. -/
def Flag.option (f : Flag) : Word := .option f.opt f.given.name f.given.value

namespace Word

theorem of_flag (f : Flag) : of (Command.options .plan) f.word = .ok f.option := by
  have valued : ∀ {o : Opt} (name value : String), '=' ∉ name.toList →
      (∃ c cs, name.toList = '-' :: c :: cs) →
      (namesOf (Command.options .plan)).lookup name = some o →
      of (Command.options .plan) (name ++ "=" ++ value) = .ok (.option o name (some value)) :=
    fun _ value plain hyphen listed => of_valued plan_names_plain plain hyphen listed value
  cases f with
  | root s => exact valued "--root" s (by decide) ⟨'-', _, rfl⟩ rfl
  | config path => exact valued "--config" path (by decide) ⟨'-', _, rfl⟩ rfl
  | optimize b => cases b <;> rfl
  | strict b => cases b <;> rfl
  | format s => exact valued "--format" s (by decide) ⟨'-', _, rfl⟩ rfl

/-- In front of the command a flag is no option at all. -/
theorem exists_of_flag (f : Flag) : ∃ w, of (Command.options .top) f.word = .ok w := by
  have valued : ∀ name value : String, '=' ∉ name.toList →
      (∃ cs, name.toList = '-' :: '-' :: cs) →
      (∀ e ∈ namesOf (Command.options .top), name.toList.isPrefixOf e.1.toList = false) →
      ∃ w, of (Command.options .top) (name ++ "=" ++ value) = .ok w := by
    intro name value plain long other
    obtain ⟨cs, letters⟩ := long
    exact of_unlisted (by decide) plain ⟨'-', _, letters⟩ ⟨cs, letters⟩ other value
  cases f with
  | root s => exact valued "--root" s (by decide) ⟨_, rfl⟩ (by decide)
  | config path => exact valued "--config" path (by decide) ⟨_, rfl⟩ (by decide)
  | optimize b => cases b <;> exact ⟨_, rfl⟩
  | strict b => cases b <;> exact ⟨_, rfl⟩
  | format s => exact valued "--format" s (by decide) ⟨_, rfl⟩ (by decide)

theorem flag_ne_mark (f : Flag) : f.word ≠ "--" := by
  have valued : ∀ name value : String, name ++ "=" ++ value ≠ "--" := by
    intro name value same
    have letters := congrArg (fun s : String => '=' ∈ s.toList) same
    simp [String.toList_append] at letters
  cases f with
  | root s => exact valued "--root" s
  | config path => exact valued "--config" path
  | optimize b => cases b <;> decide
  | strict b => cases b <;> decide
  | format s => exact valued "--format" s

/-! More words in front of others. -/

section Prepended

variable {rest : List String} {ws : List Word}

theorem all_flags (fs : List Flag) (later : all (Command.options .plan) rest = .ok ws) :
    all (Command.options .plan) (fs.map Flag.word ++ rest) = .ok (fs.map Flag.option ++ ws) := by
  induction fs with
  | nil => exact later
  | cons f fs ih => exact (all_cons_iff (flag_ne_mark f)).2 ⟨_, _, of_flag f, ih, rfl⟩

theorem exists_all_flags (fs : List Flag) (later : all (Command.options .top) rest = .ok ws) :
    ∃ vs, all (Command.options .top) (fs.map Flag.word ++ rest) = .ok vs := by
  induction fs with
  | nil => exact ⟨_, later⟩
  | cons f fs ih =>
    obtain ⟨w, first⟩ := exists_of_flag f
    obtain ⟨vs, others⟩ := ih
    exact ⟨_, (all_cons_iff (flag_ne_mark f)).2 ⟨w, vs, first, others, rfl⟩⟩

theorem all_directory {os : List Opt} {directory : Option String}
    (plain : ∀ d ∈ directory, d.toList.head? ≠ some '-') (later : all os rest = .ok ws) :
    all os (directory.toList ++ rest) = .ok (directory.toList.map Word.plain ++ ws) := by
  cases directory with
  | none => exact later
  | some d =>
    have mark : d ≠ "--" := by
      rintro rfl
      exact plain _ rfl rfl
    exact (all_cons_iff mark).2 ⟨_, _, of_plain os (plain d rfl), later, rfl⟩

end Prepended

end Word

theorem takeOption_flag {f : Flag} (known : f.Known) (ws : List Word) :
    takeOption .plan f.opt f.given.name f.given.value ws = .ok (f.given, ws) := by
  cases f with
  | root s => rfl
  | config path => rfl
  | optimize b => rfl
  | strict b => rfl
  | format s =>
    have listed : ["json", "yaml"].contains s = true := List.contains_iff_mem.2 known
    simp only [takeOption, Flag.given, Flag.opt, withValue, if_pos listed]
    rfl

theorem takeOption_unknown {f : Flag} (unknown : ¬f.Known) (ws : List Word) :
    ∃ m, takeOption .plan f.opt f.given.name f.given.value ws = .error (.misuse .plan m) := by
  cases f with
  | format s =>
    have unlisted : ¬["json", "yaml"].contains s = true := fun h => unknown (List.contains_iff_mem.1 h)
    simp only [takeOption, Flag.given, Flag.opt, withValue, if_neg unlisted]
    exact ⟨_, rfl⟩
  | _ => exact absurd trivial unknown

/-! All flags together. -/

section Sorting

variable {fs : List Flag} (placeOpen : Bool)

theorem sortWords_flags (known : ∀ f ∈ fs, f.Known) (fuel : Nat) (ws : List Word) (s : Sorted) :
    sortWords .plan placeOpen (fuel + fs.length) (fs.map Flag.option ++ ws) s =
      sortWords .plan placeOpen fuel ws { s with given := s.given ++ fs.map Flag.given } := by
  induction fs generalizing s with
  | nil => simp
  | cons f fs ih =>
    have first := takeOption_flag (known f List.mem_cons_self) (fs.map Flag.option ++ ws)
    have later := ih (fun g member => known g (List.mem_cons_of_mem _ member))
      { s with given := s.given ++ [f.given] }
    rw [List.append_assoc] at later
    rw [List.map_cons, List.cons_append, List.length_cons, ← Nat.add_assoc, Flag.option, sortWords,
      first]
    exact later

theorem sortWords_unknown (unknown : ∃ f ∈ fs, ¬f.Known) (fuel : Nat) (ws : List Word) (s : Sorted) :
    ∃ m, sortWords .plan placeOpen (fuel + fs.length) (fs.map Flag.option ++ ws) s =
      .error (.misuse .plan m) := by
  induction fs generalizing s with
  | nil =>
    obtain ⟨_, member, _⟩ := unknown
    cases member
  | cons f fs ih =>
    rw [List.map_cons, List.cons_append, List.length_cons, ← Nat.add_assoc, Flag.option, sortWords]
    by_cases known : f.Known
    · rw [takeOption_flag known]
      have later : ∃ g ∈ fs, ¬g.Known := by
        obtain ⟨g, member, bad⟩ := unknown
        rcases List.mem_cons.1 member with rfl | inside
        · exact absurd known bad
        · exact ⟨g, inside, bad⟩
      exact ih later _
    · obtain ⟨m, stop⟩ := takeOption_unknown known (fs.map Flag.option ++ ws)
      rw [stop]
      exact ⟨m, rfl⟩

end Sorting

/-- The words behind the command: flags, and perhaps a directory among them. -/
def behindPlan (front : List Flag) (directory : Option String) (back : List Flag) : List String :=
  front.map Flag.word ++ (directory.toList ++ back.map Flag.word)

section Behind

variable {front back : List Flag} {directory : Option String}

/-- A directory is sorted out, whatever flags come behind it. -/
theorem sortWords_directory (s : Sorted) (placed : s.place = none) :
    sortWords .plan true (1 + back.length + directory.toList.length)
        (directory.toList.map Word.plain ++ back.map Flag.option) s =
      sortWords .plan directory.isNone (1 + back.length) (back.map Flag.option ++ [])
        { s with place := directory } := by
  rw [List.append_nil]
  cases directory with
  | none =>
    cases s
    cases placed
    rfl
  | some d =>
    have step : sortWords .plan true (1 + back.length + 1) (.plain d :: back.map Flag.option) s =
        sortWords .plan false (1 + back.length) (back.map Flag.option)
          { s with place := s.place.or (some d), extra := s.extra ++ [] } := by
      cases back <;> rfl
    rw [placed, List.append_nil] at step
    exact step

variable (plain : ∀ d ∈ directory, d.toList.head? ≠ some '-')

include plain

theorem sorted_behindPlan : sorted .plan (behindPlan front directory back) =
    sortWords .plan true (1 + back.length + directory.toList.length + front.length)
      (front.map Flag.option ++ (directory.toList.map Word.plain ++ back.map Flag.option)) {} := by
  have nothing : Word.all (Command.options .plan) [] = .ok [] := rfl
  have last := Word.all_flags back nothing
  rw [List.append_nil, List.append_nil] at last
  have words := Word.all_flags front (Word.all_directory plain last)
  have fuel : (front.map Flag.option ++
      (directory.toList.map Word.plain ++ back.map Flag.option)).length + 1 =
        1 + back.length + directory.toList.length + front.length := by
    simp only [List.length_append, List.length_map]
    omega
  have all : Word.all Command.plan.options (behindPlan front directory back) = .ok _ := words
  rw [sorted, all, ← fuel]

theorem sorted_flags (known : ∀ f ∈ front ++ back, f.Known) :
    sorted .plan (behindPlan front directory back) =
      .ok { given := (front ++ back).map Flag.given, place := directory } := by
  have first : ∀ f ∈ front, f.Known := fun f member => known f (List.mem_append_left _ member)
  have second : ∀ f ∈ back, f.Known := fun f member => known f (List.mem_append_right _ member)
  rw [sorted_behindPlan plain, sortWords_flags true first, sortWords_directory _ rfl,
    sortWords_flags _ second, List.map_append]
  rfl

theorem sorted_unknown (unknown : ∃ f ∈ front ++ back, ¬f.Known) :
    ∃ m, sorted .plan (behindPlan front directory back) = .error (.misuse .plan m) := by
  rw [sorted_behindPlan plain]
  by_cases first : ∃ f ∈ front, ¬f.Known
  · exact sortWords_unknown true first _ _ _
  · have known : ∀ f ∈ front, f.Known := fun f member => by_contra fun bad => first ⟨f, member, bad⟩
    rw [sortWords_flags true known, sortWords_directory _ rfl]
    obtain ⟨f, member, bad⟩ := unknown
    have later := (List.mem_append.1 member).resolve_left fun early => bad (known f early)
    exact sortWords_unknown _ ⟨f, later, bad⟩ _ _ _

end Behind

/-! The whole line. -/

theorem taskOf_flags (fs : List Flag) (directory : Option String) :
    taskOf .plan { given := fs.map Flag.given, place := directory } =
      ((Flag.invocation fs directory).source, (Flag.invocation fs directory).task) := by
  have root : lastValue? "--root" (fs.map Flag.given) = (fs.filterMap Flag.root?).getLast? := by
    refine lastValue?_flags ?_
    rintro (_ | _ | (_ | _) | (_ | _) | _) <;> rfl
  have config : lastValue? "--config" (fs.map Flag.given) = (fs.filterMap Flag.config?).getLast? := by
    refine lastValue?_flags ?_
    rintro (_ | _ | (_ | _) | (_ | _) | _) <;> rfl
  have format : lastValue? "--format" (fs.map Flag.given) = (fs.filterMap Flag.format?).getLast? := by
    refine lastValue?_flags ?_
    rintro (_ | _ | (_ | _) | (_ | _) | _) <;> rfl
  have output : lastValue? "--output" (fs.map Flag.given) =
      (fs.filterMap fun _ => (none : Option String)).getLast? := by
    refine lastValue?_flags ?_
    rintro (_ | _ | (_ | _) | (_ | _) | _) <;> rfl
  have nothing : (fs.filterMap fun _ => (none : Option String)) = [] :=
    List.filterMap_eq_nil_iff.2 fun _ _ => rfl
  rw [nothing, List.getLast?_nil] at output
  have optimize : lastSwitch? "--optimize" "--no-optimize" (fs.map Flag.given) =
      (fs.filterMap Flag.optimize?).getLast? := by
    refine lastSwitch?_flags ?_
    rintro (_ | _ | (_ | _) | (_ | _) | _) <;> rfl
  have strict : lastSwitch? "--strict" "--no-strict" (fs.map Flag.given) =
      (fs.filterMap Flag.strict?).getLast? := by
    refine lastSwitch?_flags ?_
    rintro (_ | _ | (_ | _) | (_ | _) | _) <;> rfl
  simp only [taskOf, root, config, format, output, optimize, strict, Flag.invocation]

section Line

variable {front back : List Flag} {directory : Option String}
  (plain : ∀ d ∈ directory, d.toList.head? ≠ some '-')

include plain

theorem exists_opening (front back : List Flag) : ∃ ws,
    Word.all (Command.options .top) ("plan" :: behindPlan front directory back) = .ok ws ∧
      openingOf (ws.length + 1) ws ("plan" :: behindPlan front directory back) {} =
        .ok { word := some "plan", behind := behindPlan front directory back } := by
  have nothing : Word.all (Command.options .top) [] = .ok [] := rfl
  obtain ⟨_, last⟩ := Word.exists_all_flags back nothing
  rw [List.append_nil] at last
  obtain ⟨ws, later⟩ := Word.exists_all_flags front (Word.all_directory plain last)
  have first : Word.of (Command.options .top) "plan" = .ok (.plain "plan") := rfl
  exact ⟨.plain "plan" :: ws, (Word.all_cons_iff (by decide)).2 ⟨_, _, first, later, rfl⟩, rfl⟩

theorem read_flags (known : ∀ f ∈ front ++ back, f.Known) :
    read ("plan" :: behindPlan front directory back) =
      .ok (Flag.invocation (front ++ back) directory) := by
  obtain ⟨ws, words, opened⟩ := exists_opening plain front back
  refine read_eq_ok_iff.2 ⟨ws, _, "plan", .plan, _, words, opened, rfl, rfl,
    sorted_flags plain known, rfl, ?_⟩
  rw [invocation, taskOf_flags]
  rfl

/-- A format that is none is a misuse, whatever else is given. -/
theorem read_unknown (unknown : ∃ f ∈ front ++ back, ¬f.Known) :
    ∃ m, read ("plan" :: behindPlan front directory back) = .error (.misuse .plan m) := by
  obtain ⟨ws, words, opened⟩ := exists_opening plain front back
  obtain ⟨m, stop⟩ := sorted_unknown plain unknown
  refine ⟨m, ?_⟩
  have command : Command.words.lookup "plan" = some .plan := rfl
  simp only [read, words, bind, Except.bind, opened, command, stop]

end Line

end NamespacePlan.CommandLine
