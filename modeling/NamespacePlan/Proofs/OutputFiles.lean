import NamespacePlan.Proofs.CommandWords
import NamespacePlan.Proofs.OutputPlaces
import NamespacePlan.Proofs.Planning
import NamespacePlan.Proofs.SchemaLoading
import NamespacePlan.Proofs.WorkSteps

/-! A plan that is written to a file. The file holds the text that would have been printed, and nothing
else in the tree changes, even where the file was there before and was read for the plan. -/
namespace NamespacePlan

theorem Reported.outcome_bind_eq_ok_iff {ε α β : Type} {x : Reported ε α} {f : α → Reported ε β}
    {b : β} : (x >>= f).outcome = .ok b ↔ ∃ a, x.outcome = .ok a ∧ (f a).outcome = .ok b := by
  cases h : x.outcome with
  | error e =>
    rw [bind_of_error h]
    exact ⟨fun same => (nomatch same), fun ⟨_, same, _⟩ => (nomatch same)⟩
  | ok a =>
    rw [bind_of_ok h]
    exact ⟨fun same => ⟨a, rfl, same⟩, fun ⟨_, same, rest⟩ => by cases same; exact rest⟩

namespace CommandLine

/-! Runs that are tried. -/

section Runs

variable {t : FileTree} {args : List String} {i : Invocation} (reads : read args = .ok i)

include reads

theorem runOn_of_read (d : Device) {least : Nat} (threshold : Log.threshold? i.logLevel = some least) :
    runOn d t args = .ofWork (.tried i least) (perform d i { tree := t }) := by
  unfold runOn
  rw [reads]
  simp only [threshold]

theorem runOn_of_performed {d : Device} {least : Nat} {w : World}
    (threshold : Log.threshold? i.logLevel = some least)
    (performed : perform d i { tree := t } = .ok () w) :
    runOn d t args = ⟨.tried i least (.ok ()), w⟩ := by
  rw [runOn_of_read reads d threshold, performed, Ending.ofWork]

theorem exit_eq_zero_iff : (run t args).exit = .ok 0 ↔
    (∃ least, Log.threshold? i.logLevel = some least) ∧
      ∃ w, perform {} i { tree := t } = .ok () w := by
  unfold run runOn
  rw [reads]
  dsimp only
  cases Log.threshold? i.logLevel with
  | none => simp [Ending.exit]
  | some least => cases perform {} i { tree := t } <;> simp [Ending.ofWork, Ending.exit]

end Runs

/-! The same plan with an output. -/

/-- The same task, its result in a file. -/
def Invocation.withOutput (i : Invocation) (path : String) : Invocation :=
  match i.task with
  | .namespaces => i
  | .plan o => { i with task := .plan { o with output := some path } }

section Output

variable {i : Invocation} {o : PlanOptions} (plan : i.task = .plan o) (path : String)

include plan

theorem task_withOutput : (i.withOutput path).task = .plan { o with output := some path } := by
  rw [Invocation.withOutput, plan]

theorem logLevel_withOutput : (i.withOutput path).logLevel = i.logLevel := by
  rw [Invocation.withOutput, plan]

/-- The planner does not depend on where the result goes. -/
theorem plannerOf_withOutput (t : FileTree) : plannerOf t (i.withOutput path) = plannerOf t i := by
  have source : (i.withOutput path).source = i.source := by
    rw [Invocation.withOutput, plan]
  have overrides : overridesOf (i.withOutput path) = overridesOf i := by
    unfold overridesOf
    simp only [task_withOutput plan, source, plan]
  have settings : settingsOf t (i.withOutput path) = settingsOf t i := by
    unfold settingsOf
    rw [source, overrides]
  unfold plannerOf
  rw [settings]

/-- What has been reported when a plan is delivered. -/
def delivering (t : FileTree) (i : Invocation) (p : Planner) : World :=
  { tree := t, events := (plannerOf t i).events ++ (manifestOf p).events }

theorem perform_plan_eq_ok_iff {d : Device} {t : FileTree} {w : World} :
    perform d i { tree := t } = .ok () w ↔ ∃ p m, (plannerOf t i).outcome = .ok p ∧
      (manifestOf p).outcome = .ok m ∧ deliver d o m (delivering t i p) = .ok () w := by
  have start : (get : Work World) { tree := t } = .ok { tree := t } { tree := t } := rfl
  simp only [perform, carryOut, plan, Work.bind_eq_ok_iff, Work.ofReported_eq_ok_iff, start]
  constructor
  · rintro ⟨_, _, ⟨⟩, p, _, ⟨planner, rfl⟩, m, _, ⟨manifest, rfl⟩, delivered⟩
    exact ⟨p, m, planner, manifest, delivered⟩
  · rintro ⟨p, m, planner, manifest, delivered⟩
    exact ⟨_, _, rfl, p, _, ⟨planner, rfl⟩, m, _, ⟨manifest, rfl⟩, delivered⟩

end Output

theorem manifestOf_eq_ok {p : Planner} {us : List PlannedUnit} (planned : p.planAll.outcome = .ok us) :
    (manifestOf p).outcome =
      .ok (Manifest.of us p.table.entries p.table.root p.resolver.optimize) := by
  refine Reported.outcome_bind_eq_ok_iff.2 ⟨us, ?_, rfl⟩
  exact congrArg (Except.mapError TaskError.plan) planned

theorem deliver_printed {o : PlanOptions} (printed : o.output = none) (m : Manifest) (w : World) :
    deliver {} o m w = .ok () { w with stdout := w.stdout ++ (m.text o.format ++ "\n") } := by
  simp only [deliver, printed, Option.filter_none]
  exact Work.print_eq_ok_iff.2 ⟨Device.not_refuses_free _, rfl⟩

/-- What a file is emptied of first is not missed: it holds the text in the end. -/
theorem deliver_written (w : World) {o : PlanOptions} {path : String} {place : List String}
    (output : o.output = some path) (nonempty : path ≠ "") (nul : '\x00' ∉ path.toList)
    (writable : w.tree.writable path = .ok place) (m : Manifest) :
    deliver {} o m w = .ok () { w with
      tree := w.tree.put place (m.text o.format).toUTF8.toList
      stdout := w.stdout ++ (summary m path ++ "\n") } := by
  have named : o.output.filter (· ≠ "") = some path := by simp [output, nonempty]
  simp only [deliver, named, Work.bind_eq_ok_iff, Work.openFile_eq_ok_iff, Work.write_eq_ok_iff,
    Work.print_eq_ok_iff]
  refine ⟨place, _, ⟨nul, writable, rfl⟩, (), _, ⟨fun _ limit => (nomatch limit), rfl⟩,
    Device.not_refuses_free _, ?_⟩
  rw [FileTree.put_put]

/-! The option on the command line. -/

theorem output_unknown_before_command : ∀ e ∈ Word.namesOf (Command.options .top),
    "--output".toList.isPrefixOf e.1.toList = false := by decide

section Added

variable {behind : List String} {inner : Sorted} (sorts : sorted .plan behind = .ok inner)
  (path : String)

include sorts

/-- An output that is given first is the output, if no other is given. -/
theorem taskOf_output {source : Source} {o : PlanOptions}
    (task : taskOf .plan inner = (source, .plan o)) (none_ : o.output = none) :
    taskOf .plan { inner with given := ⟨"--output", some path⟩ :: inner.given } =
      (source, .plan { o with output := some path }) := by
  have valued : ∀ g ∈ inner.given, g.name = "--output" → g.value.isSome = true := by
    rintro g member same
    obtain ⟨o, listed, takes⟩ := sorted_proper sorts g member
    apply takes
    rw [same] at listed
    revert listed
    have all : ∀ e ∈ Word.namesOf (Command.options .plan), e.1 = "--output" → e.2.takes ≠ .nothing := by
      decide
    exact fun listed => all _ listed rfl
  simp only [taskOf, Prod.mk.injEq, Task.plan.injEq] at task ⊢
  obtain ⟨rfl, rfl⟩ := task
  have absent := absent_of_lastValue? none_ valued
  simp [lastValue?_cons absent, lastValue?_cons_of_ne, lastSwitch?_cons_of_ne]

end Added

/-- The words that ask for an output: a path that begins with a hyphen stands behind an equals sign. -/
inductive OutputWords (path : String) : List String → Prop where
  | joined : OutputWords path ["--output=" ++ path]
  | spaced (plain : path.toList.head? ≠ some '-') : OutputWords path ["--output", path]

/-- In front of the command these words are no option at all. -/
theorem OutputWords.known {path : String} {added : List String} (words : OutputWords path added)
    {args : List String} {ws : List Word} (all : Word.all (Command.options .top) args = .ok ws) :
    ∃ vs, Word.all (Command.options .top) (added ++ args) = .ok vs := by
  cases words with
  | joined =>
    have unlisted : ∃ w, Word.of (Command.options .top) ("--output" ++ "=" ++ path) = .ok w :=
      Word.of_unlisted (by decide) (by decide) ⟨'-', _, rfl⟩ ⟨_, rfl⟩ output_unknown_before_command path
    obtain ⟨w, here⟩ := unlisted
    have mark : "--output=" ++ path ≠ "--" := by
      intro same
      have letters := congrArg (fun s : String => '=' ∈ s.toList) same
      simp [String.toList_append] at letters
    exact ⟨_, (Word.all_cons_iff mark).2 ⟨_, _, here, all, rfl⟩⟩
  | spaced plain =>
    have first : Word.of (Command.options .top) "--output" = .ok (.unknown "--output") := by decide
    have apart : path ≠ "--" := by
      rintro rfl
      exact plain rfl
    have second := Word.of_plain (Command.options .top) plain
    exact ⟨_, (Word.all_cons_iff (by decide)).2 ⟨_, _, first,
      (Word.all_cons_iff apart).2 ⟨_, _, second, all, rfl⟩, rfl⟩⟩

theorem OutputWords.sorted {path : String} {added : List String} (words : OutputWords path added)
    {behind : List String} {inner : Sorted} (sorts : sorted .plan behind = .ok inner) :
    CommandLine.sorted .plan (added ++ behind) =
      .ok { inner with given := ⟨"--output", some path⟩ :: inner.given } := by
  have listed : (Word.namesOf (Command.options .plan)).lookup "--output" =
      some ⟨["--output"], .value⟩ := by decide
  cases words with
  | joined => exact sorted_valued listed rfl ⟨'-', _, rfl⟩ plan_names_plain (by decide) sorts
  | spaced plain => exact sorted_spaced listed rfl ⟨'-', _, rfl⟩ (by decide) (by decide) plain sorts

theorem read_output {args : List String} {i : Invocation} {o : PlanOptions}
    (reads : read args = .ok i) (plan : i.task = .plan o) (printed : o.output = none)
    (path : String) : ∃ front word behind, args = front ++ word :: behind ∧
      Command.words.lookup word = some .plan ∧ ∀ added, OutputWords path added →
        read (front ++ word :: (added ++ behind)) = .ok (i.withOutput path) := by
  obtain ⟨front, word, behind, s, c, inner, parts, command, rfl, sorts, more⟩ :=
    exists_read_added reads
  obtain rfl : c = .plan := by
    cases c with
    | plan => rfl
    | top => cases plan
    | namespaces => cases plan
  refine ⟨front, word, behind, parts, command, fun added words => ?_⟩
  have task : taskOf .plan inner = ((taskOf .plan inner).1, .plan o) := Prod.ext rfl plan
  rw [more added _ words.known (words.sorted sorts) rfl, Invocation.withOutput, plan]
  simp only [invocation, taskOf_output sorts path task printed]

/-- A plan that is printed can be written to any path that names a file or a new name: the file then
holds the text that was printed, and every other place holds what it held. -/
theorem output_agrees {t : FileTree} {args : List String} {i : Invocation} {o : PlanOptions}
    (reads : read args = .ok i) (plan : i.task = .plan o) (printed : o.output = none)
    {text : String} (fine : (run t args).exit = .ok 0) (shown : (run t args).stdout = text ++ "\n")
    {path : String} (fileable : t.Fileable path) :
    (∃ front word behind, args = front ++ word :: behind ∧ Command.words.lookup word = some .plan ∧
      ∀ added, OutputWords path added →
        read (front ++ word :: (added ++ behind)) = .ok (i.withOutput path)) ∧
    ∀ args', read args' = .ok (i.withOutput path) → (run t args').exit = .ok 0 ∧
      ∃ place, (run t args').tree.locate path = .ok place ∧
        FileTree.WrittenAt t (run t args').tree place text.toUTF8.toList := by
  refine ⟨read_output reads plan printed path, fun args' reads' => ?_⟩
  obtain ⟨⟨least, threshold⟩, w, performed⟩ := (exit_eq_zero_iff reads).1 fine
  obtain ⟨p, m, planner, manifest, delivered⟩ := (perform_plan_eq_ok_iff plan).1 performed
  rw [deliver_printed printed] at delivered
  cases delivered
  have same : text = m.text o.format := by
    rw [run, runOn_of_performed reads threshold performed] at shown
    exact (String.append_left_inj _).1 (shown.symm.trans String.empty_append)
  obtain ⟨around, last, _, writable, inside, found, located⟩ := fileable.exists_place
  have free : ∀ entries, t.root.below? (around ++ [last]) ≠ some (.directory entries) :=
    fun entries there => fileable.no_directory (found.trans there)
  have planner' : (plannerOf t (i.withOutput path)).outcome = .ok p := by
    rw [plannerOf_withOutput plan]
    exact planner
  have performed' := (perform_plan_eq_ok_iff (task_withOutput plan path)).2
    ⟨p, m, planner', manifest,
      deliver_written (delivering t (i.withOutput path) p) rfl fileable.nonempty fileable.nul writable m⟩
  have threshold' : Log.threshold? (i.withOutput path).logLevel = some least := by
    rw [logLevel_withOutput plan]
    exact threshold
  have after : (run t args').tree = t.put (around ++ [last]) text.toUTF8.toList := by
    rw [run, runOn_of_performed reads' threshold' performed', same]
    rfl
  have written := FileTree.writtenAt_put t text.toUTF8.toList inside free
  refine ⟨(exit_eq_zero_iff reads').2 ⟨⟨least, threshold'⟩, _, performed'⟩, around ++ [last], ?_, ?_⟩
  · rw [after]
    exact located _ _ written
  · rw [after]
    exact written

/-- A directory whose only schema, the bytes of `<a targetNamespace='urn:a'/>`, is the output too. -/
def oneSchema : FileTree where
  root := .directory [("a.xsd", .file
    [60, 97, 32, 116, 97, 114, 103, 101, 116, 78, 97, 109, 101, 115, 112, 97, 99, 101, 61, 39, 117,
     114, 110, 58, 97, 39, 47, 62])]
  place := []

def oneDescriptor : Descriptor where
  target := "urn:a"
  bindings := .empty
  maindoc := some false
  location := some "/a.xsd"

theorem proper_oneSchema : oneSchema.root.Proper := by
  refine .directory (by decide) (by decide) ?_
  simp only [List.mem_singleton, forall_eq]
  exact .file _

theorem load_oneSchema : (SchemaSet.load oneSchema ".").outcome = .ok [oneDescriptor] := by
  have ways : Glob.schemaWays oneSchema.root = ["a.xsd"] := by decide
  have here : oneSchema.find? "." = some oneSchema.root := rfl
  rw [SchemaSet.load_outcome here proper_oneSchema rfl (by decide) (by decide), ways, List.mergeSort_singleton]
  have loaded : SchemaSet.loadBelow oneSchema "." "a.xsd" = .ok oneDescriptor := rfl
  rw [List.mapM_cons, loaded]
  rfl

theorem plannerOf_oneSchema {i : Invocation}
    (settings : settingsOf oneSchema i = .ok { schemaDir := some "." }) :
    (plannerOf oneSchema i).outcome =
      .ok (Planner.ofSchemas [oneDescriptor] "Ubl" false false defaultHome) := by
  have built := (Planner.outcome_build_eq_ok_iff [oneDescriptor] "Ubl" false false defaultHome _).2
    ⟨by decide, by decide +kernel, rfl⟩
  unfold plannerOf
  rw [settings]
  refine Reported.outcome_bind_eq_ok_iff.2 ⟨_, rfl, ?_⟩
  refine Reported.outcome_bind_eq_ok_iff.2 ⟨[oneDescriptor], ?_, ?_⟩
  · exact congrArg (Except.mapError TaskError.schema) load_oneSchema
  · exact congrArg (Except.mapError TaskError.plan) built

theorem plan_oneSchema_printed : ∃ text, (run oneSchema ["plan", "."]).exit = .ok 0 ∧
    (run oneSchema ["plan", "."]).stdout = text ++ "\n" := by
  have reads : read ["plan", "."] = .ok { source := { schemaDir := some "." }, task := .plan {} } := rfl
  have planner := plannerOf_oneSchema
    (i := { source := { schemaDir := some "." }, task := .plan {} }) rfl
  have planned := (Planner.planAll_ofSchemas_lenient [oneDescriptor] "Ubl" false defaultHome).1
  have manifest := manifestOf_eq_ok planned
  have performed := (perform_plan_eq_ok_iff (t := oneSchema) rfl).2
    ⟨_, _, planner, manifest, deliver_printed rfl _ _⟩
  have ends := runOn_of_performed reads rfl performed
  have shown := (congrArg Ending.stdout ends).trans String.empty_append
  exact ⟨_, (exit_eq_zero_iff reads).2 ⟨⟨_, rfl⟩, _, performed⟩, shown⟩

/-- The plan of a directory can be written over its only schema. -/
theorem schema_overwritten : oneSchema.Fileable "a.xsd" ∧ ∃ text,
    (run oneSchema ["plan", "."]).exit = .ok 0 ∧
    (run oneSchema ["plan", "."]).stdout = text ++ "\n" ∧
    (run oneSchema ["plan", "--output", "a.xsd", "."]).exit = .ok 0 ∧
    ∃ u place, (run oneSchema ["plan", "--output", "a.xsd", "."]).tree = u ∧
      u.locate "a.xsd" = .ok place ∧
      FileTree.WrittenAt oneSchema u place text.toUTF8.toList := by
  have fileable : oneSchema.Fileable "a.xsd" :=
    ⟨by decide, by decide, by decide, by decide, by decide⟩
  obtain ⟨text, fine, shown⟩ := plan_oneSchema_printed
  have reads : read ["plan", "."] = .ok { source := { schemaDir := some "." }, task := .plan {} } := rfl
  obtain ⟨_, written⟩ := output_agrees reads rfl rfl fine shown fileable
  obtain ⟨fine', place, located, own⟩ := written ["plan", "--output", "a.xsd", "."] rfl
  exact ⟨fileable, text, fine, shown, fine', _, place, rfl, located, own⟩

end CommandLine

end NamespacePlan
