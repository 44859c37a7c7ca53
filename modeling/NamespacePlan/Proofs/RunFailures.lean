import NamespacePlan.Proofs.TaskStages

/-! Runs that do not end well. Each is told by the stage it fails at, by how it exits then and by the
files it leaves; only behind the opening of an output can a failure leave another tree. -/
namespace NamespacePlan.CommandLine

/-- How a run fails, how it exits then, and which files it leaves. -/
inductive RunFails (d : Device) (t : FileTree) (args : List String) :
    Except String Nat → FileTree → Prop
  | usage {c : Command} {m : Misuse} (misused : read args = .error (.misuse c m)) :
      RunFails d t args (.ok 2) t
  | help {c : Command} {x : Char} (asked : read args = .error (.help c))
      (refused : d.Refuses c.help x) : RunFails d t args (.error (TaskError.unprintable x).message) t
  | logging {i : Invocation} (reads : read args = .ok i)
      (unknown : Log.threshold? i.logLevel = none) :
      RunFails d t args (.error "Unable to configure logger ''") t
  | task {i : Invocation} {least : Nat} {e : TaskError} {u : FileTree} (reads : read args = .ok i)
      (threshold : Log.threshold? i.logLevel = some least) (fails : TaskFails d t i e u) :
      RunFails d t args (.ok 1) u

section Exits

variable {d : Device} {t : FileTree} {args : List String}

theorem RunFails.ends {code : Except String Nat} {u : FileTree} (fails : RunFails d t args code u) :
    (runOn d t args).exit = code ∧ code ≠ .ok 0 ∧ (runOn d t args).tree = u := by
  cases fails with
  | usage misused =>
    rw [runOn, misused]
    exact ⟨rfl, by simp, rfl⟩
  | help asked refused =>
    rw [runOn, asked]
    dsimp only
    rw [Work.print_eq_error_iff.2 ⟨_, refused, rfl, rfl⟩]
    exact ⟨rfl, by simp, rfl⟩
  | logging reads unknown =>
    rw [runOn, reads]
    simp [unknown, Ending.exit, Ending.tree]
  | task reads threshold fails =>
    obtain ⟨es, failed⟩ := fails.fails
    rw [runOn_of_read reads d threshold, failed]
    exact ⟨rfl, by simp, rfl⟩

/-- A run that does not exit with 0 has failed at a stage, and has printed nothing. -/
theorem runFails_of_exit (failed : (runOn d t args).exit ≠ .ok 0) :
    RunFails d t args (runOn d t args).exit (runOn d t args).tree ∧
      (runOn d t args).stdout = "" := by
  cases reads : read args with
  | error s =>
    cases s with
    | misuse c m =>
      rw [runOn, reads]
      exact ⟨.usage reads, rfl⟩
    | help c =>
      rw [runOn, reads] at failed ⊢
      dsimp only at failed ⊢
      cases printed : Work.print d c.help { tree := t } with
      | ok u w =>
        rw [printed] at failed
        exact absurd rfl failed
      | error e w =>
        obtain ⟨x, refused, rfl, rfl⟩ := Work.print_eq_error_iff.1 printed
        exact ⟨.help reads refused, rfl⟩
  | ok i =>
    cases threshold : Log.threshold? i.logLevel with
    | none =>
      have ends : runOn d t args = ⟨.badThreshold i.logLevel, { tree := t }⟩ := by
        simp [runOn, reads, threshold]
      rw [ends]
      exact ⟨.logging reads threshold, rfl⟩
    | some least =>
      rw [runOn_of_read reads d threshold] at failed ⊢
      cases performed : perform d i { tree := t } with
      | ok u w =>
        rw [performed] at failed
        exact absurd rfl failed
      | error e w =>
        obtain ⟨fails, silent⟩ := taskFails_of_error performed
        exact ⟨.task reads threshold fails, silent⟩

/-- Where everything can be written and printed, a failure leaves every file. -/
theorem RunFails.untouched {code : Except String Nat} {u : FileTree} (fails : RunFails {} t args code u) :
    u = t := by
  cases fails with
  | usage => rfl
  | help => rfl
  | logging => rfl
  | task _ _ fails =>
    cases fails with
    | unplanned => rfl
    | table => rfl
    | unknown => rfl
    | delivery _ _ _ _ undelivered => exact undelivered.untouched

end Exits

/-- A plan that has its manifest and its output open. -/
structure Opens (t : FileTree) (args : List String) (o : PlanOptions) (m : Manifest) (path : String)
    (place : List String) : Prop where
  planned : ∃ i s ds, read args = .ok i ∧ i.task = .plan o ∧ Loads t i s ds ∧ SinglePrefix ds ∧
    stopOf s ds = none ∧ m = manifestFor s ds
  output : o.output.filter (· ≠ "") = some path
  writable : t.writable path = .ok place

/-- What a failure leaves behind the opening of an output: the beginning of the text, if there is no
room for the rest, or the whole text, if the line about it cannot be printed. -/
inductive Interrupted (d : Device) (t : FileTree) (args : List String) : FileTree → Prop
  | full {o : PlanOptions} {m : Manifest} {path : String} {place : List String} {room : Nat}
      (opens : Opens t args o m path place) (limit : d.room = some room)
      (short : room < (m.text o.format).toUTF8.toList.length) :
      Interrupted d t args (t.put place ((m.text o.format).toUTF8.toList.take room))
  | untold {o : PlanOptions} {m : Manifest} {path : String} {place : List String} {c : Char}
      (opens : Opens t args o m path place) (refused : d.Refuses (summary m path ++ "\n") c) :
      Interrupted d t args (t.put place (m.text o.format).toUTF8.toList)

theorem RunFails.untouched_or_interrupted {d : Device} {t : FileTree} {args : List String}
    {code : Except String Nat} {u : FileTree} (fails : RunFails d t args code u) :
    u = t ∨ Interrupted d t args u := by
  cases fails with
  | usage => exact .inl rfl
  | help => exact .inl rfl
  | logging => exact .inl rfl
  | task reads _ fails =>
    cases fails with
    | unplanned => exact .inl rfl
    | table => exact .inl rfl
    | unknown => exact .inl rfl
    | @delivery s ds o _ _ loads single plan finished undelivered =>
      have opens : ∀ {path place}, o.output.filter (· ≠ "") = some path →
          t.writable path = .ok place → Opens t args o (manifestFor s ds) path place :=
        fun output writable =>
          ⟨⟨_, _, _, reads, plan, loads, single, finished, rfl⟩, output, writable⟩
      cases undelivered with
      | printing => exact .inl rfl
      | opening => exact .inl rfl
      | writing output _ writable limit short =>
        exact .inr (.full (opens output writable) limit short)
      | telling output _ writable _ refused =>
        exact .inr (.untold (opens output writable) refused)

/-- A run that does not exit with 0 has failed at a stage, has printed nothing and has changed no file.
On a device with an end, too, nothing is printed then, and only an output that was opened is changed. -/
theorem failed_run_leaves_nothing {t : FileTree} {args : List String} :
    ((run t args).exit ≠ .ok 0 → RunFails {} t args (run t args).exit t ∧
      (run t args).stdout = "" ∧ (run t args).tree = t) ∧
    ∀ d, (runOn d t args).exit ≠ .ok 0 → (runOn d t args).stdout = "" ∧
      ((runOn d t args).tree = t ∨ Interrupted d t args (runOn d t args).tree) := by
  refine ⟨fun failed => ?_, fun d failed => ?_⟩
  · obtain ⟨fails, silent⟩ := runFails_of_exit failed
    have same := fails.untouched
    rw [same] at fails
    exact ⟨fails, silent, same⟩
  · obtain ⟨fails, silent⟩ := runFails_of_exit failed
    exact ⟨silent, fails.untouched_or_interrupted⟩

/-- A strict plan fails over the only schema and leaves the file that it was to write. -/
theorem strict_oneSchema_leaves_nothing :
    (run oneSchema ["plan", ".", "--strict", "--output", "a.xsd"]).exit = .ok 1 ∧
    (run oneSchema ["plan", ".", "--strict", "--output", "a.xsd"]).stdout = "" ∧
    (run oneSchema ["plan", ".", "--strict", "--output", "a.xsd"]).tree = oneSchema := by
  have reads : read ["plan", ".", "--strict", "--output", "a.xsd"] =
      .ok { source := { schemaDir := some "." }
            task := .plan { strict := some true, output := some "a.xsd" } } := rfl
  have settings : settingsOf oneSchema
      { source := { schemaDir := some "." }
        task := .plan { strict := some true, output := some "a.xsd" } } =
      .ok { strict := true, schemaDir := some "." } := rfl
  have stop : stopOf { strict := true, schemaDir := some "." } [oneDescriptor] =
      some oneDescriptor := rfl
  have fails : RunFails {} oneSchema ["plan", ".", "--strict", "--output", "a.xsd"] (.ok 1) oneSchema :=
    .task reads rfl (.unknown (loads_oneSchema settings rfl) (by decide +kernel) rfl stop)
  have exit := fails.ends.1
  have ends : (run oneSchema ["plan", ".", "--strict", "--output", "a.xsd"]).exit ≠ .ok 0 := by
    rw [run, exit]
    decide
  exact ⟨exit, (failed_run_leaves_nothing.1 ends).2⟩

/-- The line about an output is printed behind the writing: if it cannot be printed, the file is there,
as it is behind a run that ends well. -/
theorem untold_run_leaves_file {d : Device} (roomy : d.room = none) (mute : d.prints '✅' = false)
    {t : FileTree} {args : List String} {i : Invocation} {o : PlanOptions} {path : String}
    (reads : read args = .ok i) (plan : i.task = .plan o)
    (output : o.output = some path) (nonempty : path ≠ "") (fine : (run t args).exit = .ok 0) :
    (runOn d t args).exit = .ok 1 ∧ (runOn d t args).stdout = "" ∧
      (runOn d t args).tree = (run t args).tree := by
  obtain ⟨⟨least, threshold⟩, w, performed⟩ := (exit_eq_zero_iff reads).1 fine
  obtain ⟨s, ds, loads, single, finished, delivered⟩ := (perform_plan_iff plan).1 performed
  have named : o.output.filter (· ≠ "") = some path := by simp [output, nonempty]
  have opened : '\x00' ∉ path.toList ∧ ∃ place, t.writable path = .ok place := by
    rw [deliver, named] at delivered
    obtain ⟨place, _, opened, _⟩ := Work.bind_eq_ok_iff.1 delivered
    obtain ⟨nul, writable, _⟩ := Work.openFile_eq_ok_iff.1 opened
    exact ⟨nul, place, writable⟩
  obtain ⟨nul, place, writable⟩ := opened
  rw [deliver_written (delivering t i (plannerFor s ds)) output nonempty nul writable] at delivered
  cases delivered
  have letter : '✅' ∈ (summary (manifestFor s ds) path ++ "\n").toList := by
    simp [summary, String.toList_append]
  obtain ⟨c, refused⟩ := Device.exists_refuses letter mute
  have fits : ∀ room ∈ d.room,
      ((manifestFor s ds).text o.format).toUTF8.toList.length ≤ room := by
    simp [roomy]
  have fails : RunFails d t args (.ok 1) (t.put place ((manifestFor s ds).text o.format).toUTF8.toList) :=
    .task reads threshold
      (.delivery loads single plan finished (.telling named nul writable fits refused))
  obtain ⟨exit, _, left⟩ := fails.ends
  have failed : (runOn d t args).exit ≠ .ok 0 := by
    rw [exit]
    simp
  have whole := congrArg Ending.tree (runOn_of_performed reads threshold performed)
  exact ⟨exit, (runFails_of_exit failed).2, left.trans whole.symm⟩

end NamespacePlan.CommandLine
