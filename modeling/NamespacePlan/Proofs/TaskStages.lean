import Mathlib.Tactic.MkIffOfInductiveProp
import NamespacePlan.Proofs.OutputFiles
import NamespacePlan.Proofs.PrefixConflicts
import NamespacePlan.Proofs.SettingFields

/-! The stages of a task: its settings, its schemas, the table of their namespaces, and for a plan its
units and its output. Each stage is told by what it needs, and a task ends well if all of them do. -/
namespace NamespacePlan

theorem Reported.outcome_bind_eq_error_iff {ε α β : Type} {x : Reported ε α} {f : α → Reported ε β}
    {e : ε} : (x >>= f).outcome = .error e ↔
      x.outcome = .error e ∨ ∃ a, x.outcome = .ok a ∧ (f a).outcome = .error e := by
  cases h : x.outcome with
  | error e' => simp [bind_of_error h]
  | ok a => simp [bind_of_ok h]

/-- With a root, building a planner fails over the prefixes only. -/
theorem Planner.outcome_build_eq_error_iff {ds : List Descriptor} {root : String} (named : root ≠ "")
    (optimize strict : Bool) (home : String) (e : PlanError) :
    (build ds root optimize strict home).outcome = .error e ↔
      ∃ c, Prefixes.collect ds = .error c ∧ .conflict c = e := by
  by_cases single : SinglePrefix ds
  · have built := (outcome_build_eq_ok_iff ds root optimize strict home _).2 ⟨named, single, rfl⟩
    simp [built, Prefixes.collect_of_single single]
  · obtain ⟨c, failed⟩ := Prefixes.collect_of_conflict single
    have table : (NamespaceTable.build ds root optimize strict).outcome = .error (.conflict c) := by
      rw [NamespaceTable.outcome_build, NamespaceTable.build?, if_neg named, failed]
    simp [build, Reported.bind_of_error table, failed]

namespace CommandLine

variable {t : FileTree} {i : Invocation}

/-! The settings. -/

/-- The settings that the options of a command line are laid over. -/
def baseOf (t : FileTree) (config : Option String) : Except SettingsError Settings :=
  match config with
  | none => .ok {}
  | some path => if path = "" then .ok {} else SettingsFile.load t path

def Task.optimize? : Task → Option Bool
  | namespaces => none
  | plan o => o.optimize

def Task.strict? : Task → Option Bool
  | namespaces => none
  | plan o => o.strict

/-- Settings under the options of a command line. -/
def Invocation.applied (i : Invocation) (c : Settings) : Settings where
  root := i.source.root.getD c.root
  optimize := i.task.optimize?.getD c.optimize
  strict := i.task.strict?.getD c.strict
  schemaDir := i.source.schemaDir.or c.schemaDir
  home := c.home

theorem merged_overrides (c : Settings) (i : Invocation) :
    c.merged (overridesOf i) = Settings.ofEntries (i.applied c).entries := by
  obtain ⟨_, _, ⟨directory, root, _⟩, task⟩ := i
  rw [Settings.merged]
  apply congrArg Settings.ofEntries
  unfold overridesOf Invocation.applied Settings.entries
  cases task with
  | namespaces => cases directory <;> cases root <;> rfl
  | plan o =>
    obtain ⟨optimize, strict, _, _⟩ := o
    cases directory <;> cases root <;> cases optimize <;> cases strict <;> rfl

theorem settingsOf_eq_ok_iff {s : Settings} : settingsOf t i = .ok s ↔
    ∃ c, baseOf t i.source.config = .ok c ∧ (i.applied c).Sound ∧ s = (i.applied c).tidied := by
  have whole : settingsOf t i = (baseOf t i.source.config).bind fun c =>
      (c.merged (overridesOf i)).mapError .invalid := by
    unfold settingsOf baseOf
    cases i.source.config with
    | none => rfl
    | some path =>
      by_cases empty : path = ""
      · simp only [if_pos empty, Except.bind]
      · simp only [if_neg empty]
        cases SettingsFile.load t path <;> rfl
  rw [whole]
  cases baseOf t i.source.config with
  | error e => simp [Except.bind]
  | ok c =>
    have merged := Settings.ofEntries_eq_ok_iff (.refl (i.applied c).entries) (c := s)
    simp [Except.bind, merged_overrides, mapError_eq_ok_iff, merged]

theorem settingsOf_valid {s : Settings} (settings : settingsOf t i = .ok s) : s.Valid := by
  obtain ⟨c, _, sound, rfl⟩ := settingsOf_eq_ok_iff.1 settings
  exact Settings.valid_of_ofEntries
    ((Settings.ofEntries_eq_ok_iff (.refl (i.applied c).entries)).2 ⟨sound, rfl⟩)

/-- The settings of a task, and the schemas that are loaded under them. -/
structure Loads (t : FileTree) (i : Invocation) (s : Settings) (ds : List Descriptor) : Prop where
  settings : settingsOf t i = .ok s
  schemas : ∃ directory, s.schemaDir = some directory ∧ (SchemaSet.load t directory).outcome = .ok ds

theorem loads_oneSchema {s : Settings} (settings : settingsOf oneSchema i = .ok s)
    (here : s.schemaDir = some ".") : Loads oneSchema i s [oneDescriptor] :=
  ⟨settings, ".", here, load_oneSchema⟩

def plannerFor (s : Settings) (ds : List Descriptor) : Planner :=
  .ofSchemas ds s.root s.optimize s.strict s.home

theorem plannerOf_eq_ok_iff {t : FileTree} {i : Invocation} {p : Planner} :
    (plannerOf t i).outcome = .ok p ↔ ∃ s directory ds, settingsOf t i = .ok s ∧
      s.schemaDir = some directory ∧ (SchemaSet.load t directory).outcome = .ok ds ∧
      (Planner.build ds s.root s.optimize s.strict s.home).outcome = .ok p := by
  unfold plannerOf
  rw [Reported.outcome_bind_eq_ok_iff]
  refine exists_congr fun s => ?_
  have settings : (Reported.ofExcept ((settingsOf t i).mapError TaskError.settings)).outcome = .ok s ↔
      settingsOf t i = .ok s := mapError_eq_ok_iff
  rw [settings]
  cases s.schemaDir with
  | none =>
    constructor
    · rintro ⟨_, stop⟩
      cases stop
    · rintro ⟨_, _, _, stop, _⟩
      cases stop
  | some directory =>
    dsimp only
    rw [Reported.outcome_bind_eq_ok_iff]
    constructor
    · rintro ⟨read, ds, loads, builds⟩
      exact ⟨directory, ds, read, rfl, mapError_eq_ok_iff.1 loads, mapError_eq_ok_iff.1 builds⟩
    · rintro ⟨_, ds, read, same, loads, builds⟩
      cases same
      exact ⟨read, ds, mapError_eq_ok_iff.2 loads, mapError_eq_ok_iff.2 builds⟩

theorem exists_loads_iff {p : Planner} : (plannerOf t i).outcome = .ok p ↔
    ∃ s ds, Loads t i s ds ∧ SinglePrefix ds ∧ p = plannerFor s ds := by
  rw [plannerOf_eq_ok_iff]
  constructor
  · rintro ⟨s, directory, ds, settings, named, loads, builds⟩
    obtain ⟨_, single, rfl⟩ := (Planner.outcome_build_eq_ok_iff ds _ _ _ _ p).1 builds
    exact ⟨s, ds, ⟨settings, directory, named, loads⟩, single, rfl⟩
  · rintro ⟨s, ds, ⟨settings, directory, named, loads⟩, single, rfl⟩
    have filled := (settingsOf_valid settings).filled
    exact ⟨s, directory, ds, settings, named, loads,
      (Planner.outcome_build_eq_ok_iff ds _ _ _ _ _).2 ⟨filled, single, rfl⟩⟩

/-- Why there is no planner, and what has been reached before. -/
inductive Unplanned (t : FileTree) (i : Invocation) : TaskError → Prop
  | settings {e : SettingsError} (wrong : settingsOf t i = .error e) : Unplanned t i (.settings e)
  | directory {s : Settings} (settings : settingsOf t i = .ok s) (none : s.schemaDir = none) :
      Unplanned t i .noDirectory
  | schema {s : Settings} {directory : String} {e : SchemaError} (settings : settingsOf t i = .ok s)
      (named : s.schemaDir = some directory)
      (fault : (SchemaSet.load t directory).outcome = .error e) : Unplanned t i (.schema e)
  | prefixes {s : Settings} {ds : List Descriptor} {c : Conflict} (loads : Loads t i s ds)
      (conflict : Prefixes.FirstConflict ds c) : Unplanned t i (.plan (.conflict c))

theorem plannerOf_eq_error_iff {e : TaskError} :
    (plannerOf t i).outcome = .error e ↔ Unplanned t i e := by
  have read : ∀ s, (Reported.ofExcept ((settingsOf t i).mapError TaskError.settings)).outcome =
      .ok s ↔ settingsOf t i = .ok s := fun _ => mapError_eq_ok_iff
  unfold plannerOf
  rw [Reported.outcome_bind_eq_error_iff]
  constructor
  · rintro (wrong | ⟨s, settings, rest⟩)
    · obtain ⟨_, unread, rfl⟩ := mapError_eq_error_iff.1 wrong
      exact .settings unread
    · rw [read] at settings
      cases named : s.schemaDir with
      | none =>
        rw [named] at rest
        cases rest
        exact .directory settings named
      | some directory =>
        rw [named] at rest
        rcases Reported.outcome_bind_eq_error_iff.1 rest with fault | ⟨ds, loads, builds⟩
        · obtain ⟨_, unloaded, rfl⟩ := mapError_eq_error_iff.1 fault
          exact .schema settings named unloaded
        · obtain ⟨_, unbuilt, rfl⟩ := mapError_eq_error_iff.1 builds
          have filled := (settingsOf_valid settings).filled
          obtain ⟨c, failed, rfl⟩ :=
            (Planner.outcome_build_eq_error_iff filled _ _ _ _).1 unbuilt
          exact .prefixes ⟨settings, directory, named, mapError_eq_ok_iff.1 loads⟩
            (Prefixes.collect_eq_error_iff.1 failed)
  · intro unplanned
    cases unplanned with
    | settings wrong => exact .inl (mapError_eq_error_iff.2 ⟨_, wrong, rfl⟩)
    | directory settings none =>
      refine .inr ⟨_, (read _).2 settings, ?_⟩
      rw [none]
      rfl
    | schema settings named fault =>
      refine .inr ⟨_, (read _).2 settings, ?_⟩
      rw [named]
      exact Reported.outcome_bind_eq_error_iff.2 (.inl (mapError_eq_error_iff.2 ⟨_, fault, rfl⟩))
    | @prefixes s ds c loads conflict =>
      obtain ⟨settings, directory, named, loaded⟩ := loads
      have filled := (settingsOf_valid settings).filled
      have failed := Prefixes.collect_eq_error_iff.2 conflict
      have builds := (Planner.outcome_build_eq_error_iff filled s.optimize s.strict s.home _).2
        ⟨c, failed, rfl⟩
      refine .inr ⟨s, (read s).2 settings, ?_⟩
      rw [named]
      exact Reported.outcome_bind_eq_error_iff.2
        (.inr ⟨ds, mapError_eq_ok_iff.2 loaded, mapError_eq_error_iff.2 ⟨_, builds, rfl⟩⟩)

/-! The units of a plan. -/

section Units

variable {s : Settings} {ds : List Descriptor}

/-- The schema over which a plan fails: the first one whose namespace is no key of the table, if the plan
is strict. -/
def stopOf (s : Settings) (ds : List Descriptor) : Option Descriptor :=
  if s.strict then ((plannerFor s ds).missing ds).head? else none

theorem outcome_planAll (s : Settings) (ds : List Descriptor) : (plannerFor s ds).planAll.outcome =
    match stopOf s ds with
    | none => .ok (ds.map fun d => (plannerFor s ds).unitOf d.target)
    | some d => .error (.unknownNamespace d.target) := by
  have whole : (plannerFor s ds).planAll = (plannerFor s ds).planEach ds := rfl
  rw [whole, stopOf]
  cases strict : s.strict with
  | false => exact (Planner.planEach_lenient strict ds).1
  | true => exact (Planner.planEach_strict strict ds).2

/-- The manifest of a plan that does not fail. -/
def manifestFor (s : Settings) (ds : List Descriptor) : Manifest :=
  .of (ds.map fun d => (plannerFor s ds).unitOf d.target) (plannerFor s ds).table.entries s.root
    s.optimize

theorem outcome_manifestOf (s : Settings) (ds : List Descriptor) : (manifestOf (plannerFor s ds)).outcome =
    match stopOf s ds with
    | none => .ok (manifestFor s ds)
    | some d => .error (.plan (.unknownNamespace d.target)) := by
  have units := outcome_planAll s ds
  cases stop : stopOf s ds with
  | none =>
    rw [stop] at units
    exact manifestOf_eq_ok units
  | some d =>
    rw [stop] at units
    have failed : ((plannerFor s ds).planAll.mapError TaskError.plan).outcome =
        .error (.plan (.unknownNamespace d.target)) := congrArg (Except.mapError TaskError.plan) units
    rw [manifestOf, Reported.bind_of_error failed]

end Units

/-! The delivery of a plan. -/

/-- How the delivery of a plan fails, and what it leaves. A file that is cut short holds what there was
room for, and one that is not told of is whole. -/
inductive Undelivered (d : Device) (o : PlanOptions) (m : Manifest) (t : FileTree) :
    TaskError → FileTree → Prop
  | printing {c : Char} (printed : o.output.filter (· ≠ "") = none)
      (refused : d.Refuses (m.text o.format ++ "\n") c) : Undelivered d o m t (.unprintable c) t
  | opening {path : String} {e : TaskError} (output : o.output.filter (· ≠ "") = some path)
      (unwritable : Work.Unwritable t path e) : Undelivered d o m t e t
  | writing {path : String} {place : List String} {room : Nat}
      (output : o.output.filter (· ≠ "") = some path) (nul : '\x00' ∉ path.toList)
      (writable : t.writable path = .ok place) (limit : d.room = some room)
      (short : room < (m.text o.format).toUTF8.toList.length) :
      Undelivered d o m t .noRoom (t.put place ((m.text o.format).toUTF8.toList.take room))
  | telling {path : String} {place : List String} {c : Char}
      (output : o.output.filter (· ≠ "") = some path) (nul : '\x00' ∉ path.toList)
      (writable : t.writable path = .ok place)
      (fits : ∀ room ∈ d.room, (m.text o.format).toUTF8.toList.length ≤ room)
      (refused : d.Refuses (summary m path ++ "\n") c) :
      Undelivered d o m t (.unprintable c) (t.put place (m.text o.format).toUTF8.toList)

section Delivery

variable {d : Device} {o : PlanOptions} {m : Manifest} {w w' : World} {e : TaskError}

theorem undelivered_of_error (failed : deliver d o m w = .error e w') :
    Undelivered d o m w.tree e w'.tree ∧ w' = { w with tree := w'.tree } := by
  unfold deliver at failed
  cases output : o.output.filter (· ≠ "") with
  | none =>
    rw [output] at failed
    obtain ⟨c, refused, rfl, rfl⟩ := Work.print_eq_error_iff.1 failed
    exact ⟨.printing output refused, rfl⟩
  | some path =>
    rw [output] at failed
    rcases Work.bind_eq_error_iff.1 failed with unopened | ⟨place, v, opened, rest⟩
    · obtain ⟨unwritable, rfl⟩ := Work.openFile_eq_error_iff.1 unopened
      exact ⟨.opening output unwritable, rfl⟩
    · obtain ⟨nul, writable, rfl⟩ := Work.openFile_eq_ok_iff.1 opened
      rcases Work.bind_eq_error_iff.1 rest with unwritten | ⟨_, v, written, untold⟩
      · obtain ⟨room, limit, short, rfl, rfl⟩ := Work.write_eq_error_iff.1 unwritten
        rw [FileTree.put_put]
        exact ⟨.writing output nul writable limit short, rfl⟩
      · obtain ⟨fits, rfl⟩ := Work.write_eq_ok_iff.1 written
        obtain ⟨c, refused, rfl, rfl⟩ := Work.print_eq_error_iff.1 untold
        rw [FileTree.put_put]
        exact ⟨.telling output nul writable fits refused, rfl⟩

theorem Undelivered.fails {u : FileTree} (undelivered : Undelivered d o m w.tree e u) :
    deliver d o m w = .error e { w with tree := u } := by
  unfold deliver
  cases undelivered with
  | printing printed refused =>
    rw [printed]
    exact Work.print_eq_error_iff.2 ⟨_, refused, rfl, rfl⟩
  | opening output unwritable =>
    rw [output]
    exact Work.bind_eq_error_iff.2 (.inl (Work.openFile_eq_error_iff.2 ⟨unwritable, rfl⟩))
  | writing output nul writable limit short =>
    rw [output]
    refine Work.bind_eq_error_iff.2 (.inr ⟨_, _, Work.openFile_eq_ok_iff.2 ⟨nul, writable, rfl⟩, ?_⟩)
    refine Work.bind_eq_error_iff.2 (.inl (Work.write_eq_error_iff.2 ⟨_, limit, short, rfl, ?_⟩))
    rw [FileTree.put_put]
  | telling output nul writable fits refused =>
    rw [output]
    refine Work.bind_eq_error_iff.2 (.inr ⟨_, _, Work.openFile_eq_ok_iff.2 ⟨nul, writable, rfl⟩, ?_⟩)
    refine Work.bind_eq_error_iff.2 (.inr ⟨(), _, Work.write_eq_ok_iff.2 ⟨fits, rfl⟩, ?_⟩)
    refine Work.print_eq_error_iff.2 ⟨_, refused, rfl, ?_⟩
    rw [FileTree.put_put]

/-- Only a device with too little room, or one that refuses a character, lets a delivery fail that has
changed a file. -/
theorem Undelivered.untouched {t u : FileTree} (undelivered : Undelivered {} o m t e u) : u = t := by
  cases undelivered with
  | printing => rfl
  | opening => rfl
  | writing _ _ _ limit => cases limit
  | telling _ _ _ _ refused => exact absurd refused (Device.not_refuses_free _ _)

end Delivery

/-! Whole tasks. -/

theorem perform_namespaces_iff (task : i.task = .namespaces) {w : World} :
    perform {} i { tree := t } = .ok () w ↔ ∃ s ds, Loads t i s ds ∧ SinglePrefix ds ∧
      w = { tree := t
            stdout := tableText (plannerFor s ds) ++ "\n"
            events := (plannerOf t i).events } := by
  have start : (get : Work World) { tree := t } = .ok { tree := t } { tree := t } := rfl
  have free := Device.not_refuses_free
  simp only [perform, carryOut, task, Work.bind_eq_ok_iff, Work.ofReported_eq_ok_iff, start,
    Work.print_eq_ok_iff, exists_loads_iff]
  constructor
  · rintro ⟨_, _, ⟨⟩, _, _, ⟨⟨s, ds, loads, single, rfl⟩, rfl⟩, _, rfl⟩
    exact ⟨s, ds, loads, single, congrArg (World.mk t · _) String.empty_append⟩
  · rintro ⟨s, ds, loads, single, rfl⟩
    exact ⟨_, _, rfl, _, _, ⟨⟨s, ds, loads, single, rfl⟩, rfl⟩, free _,
      congrArg (World.mk t · _) String.empty_append.symm⟩

theorem perform_plan_iff {d : Device} {o : PlanOptions} (plan : i.task = .plan o) {w : World} :
    perform d i { tree := t } = .ok () w ↔ ∃ s ds, Loads t i s ds ∧ SinglePrefix ds ∧
      stopOf s ds = none ∧
      deliver d o (manifestFor s ds) (delivering t i (plannerFor s ds)) = .ok () w := by
  rw [perform_plan_eq_ok_iff plan]
  simp only [exists_loads_iff]
  constructor
  · rintro ⟨_, m, ⟨s, ds, loads, single, rfl⟩, manifest, delivered⟩
    rw [outcome_manifestOf] at manifest
    cases stop : stopOf s ds with
    | some d =>
      rw [stop] at manifest
      cases manifest
    | none =>
      rw [stop] at manifest
      cases manifest
      exact ⟨s, ds, loads, single, stop, delivered⟩
  · rintro ⟨s, ds, loads, single, stop, delivered⟩
    refine ⟨_, manifestFor s ds, ⟨s, ds, loads, single, rfl⟩, ?_, delivered⟩
    rw [outcome_manifestOf, stop]

/-- How a task fails, what has been reached before, and which files it leaves. -/
inductive TaskFails (d : Device) (t : FileTree) (i : Invocation) : TaskError → FileTree → Prop
  | unplanned {e : TaskError} (unplanned : Unplanned t i e) : TaskFails d t i e t
  | table {s : Settings} {ds : List Descriptor} {c : Char} (loads : Loads t i s ds)
      (single : SinglePrefix ds) (task : i.task = .namespaces)
      (refused : d.Refuses (tableText (plannerFor s ds) ++ "\n") c) :
      TaskFails d t i (.unprintable c) t
  | unknown {s : Settings} {ds : List Descriptor} {o : PlanOptions} {x : Descriptor}
      (loads : Loads t i s ds) (single : SinglePrefix ds) (plan : i.task = .plan o)
      (stop : stopOf s ds = some x) : TaskFails d t i (.plan (.unknownNamespace x.target)) t
  | delivery {s : Settings} {ds : List Descriptor} {o : PlanOptions} {e : TaskError} {u : FileTree}
      (loads : Loads t i s ds) (single : SinglePrefix ds) (plan : i.task = .plan o)
      (finished : stopOf s ds = none) (undelivered : Undelivered d o (manifestFor s ds) t e u) :
      TaskFails d t i e u

section Failures

variable {d : Device} {e : TaskError}

theorem taskFails_of_error {w : World} (failed : perform d i { tree := t } = .error e w) :
    TaskFails d t i e w.tree ∧ w.stdout = "" := by
  rcases Work.bind_eq_error_iff.1 failed with ⟨⟨⟩⟩ | ⟨_, _, ⟨⟩, rest⟩
  rcases Work.bind_eq_error_iff.1 rest with first | ⟨_, _, built, rest⟩
  · obtain ⟨fault, rfl⟩ := Work.ofReported_eq_error_iff.1 first
    exact ⟨.unplanned (plannerOf_eq_error_iff.1 fault), rfl⟩
  obtain ⟨planner, rfl⟩ := Work.ofReported_eq_ok_iff.1 built
  obtain ⟨s, ds, loads, single, rfl⟩ := exists_loads_iff.1 planner
  cases task : i.task with
  | namespaces =>
    rw [task] at rest
    obtain ⟨c, refused, rfl, rfl⟩ := Work.print_eq_error_iff.1 rest
    exact ⟨.table loads single task refused, rfl⟩
  | plan o =>
    rw [task] at rest
    have units := outcome_manifestOf s ds
    rcases Work.bind_eq_error_iff.1 rest with first | ⟨m, _, listed, failed⟩
    · obtain ⟨fault, rfl⟩ := Work.ofReported_eq_error_iff.1 first
      cases stop : stopOf s ds with
      | none =>
        rw [stop] at units
        cases units.symm.trans fault
      | some x =>
        rw [stop] at units
        cases units.symm.trans fault
        exact ⟨.unknown loads single task stop, rfl⟩
    · obtain ⟨manifest, rfl⟩ := Work.ofReported_eq_ok_iff.1 listed
      obtain ⟨undelivered, whole⟩ := undelivered_of_error failed
      cases stop : stopOf s ds with
      | none =>
        rw [stop] at units
        cases units.symm.trans manifest
        exact ⟨.delivery loads single task stop undelivered, congrArg World.stdout whole⟩
      | some x =>
        rw [stop] at units
        cases units.symm.trans manifest

/-- What fails behind a planner fails the task. -/
theorem error_of_loads {s : Settings} {ds : List Descriptor} {w : World} (loads : Loads t i s ds)
    (single : SinglePrefix ds)
    (failed : carryOut d i.task (plannerFor s ds)
      { tree := t, events := (plannerOf t i).events } = .error e w) :
    perform d i { tree := t } = .error e w := by
  have planner := exists_loads_iff.2 ⟨s, ds, loads, single, rfl⟩
  exact Work.bind_eq_error_iff.2 (.inr ⟨{ tree := t }, { tree := t }, rfl,
    Work.bind_eq_error_iff.2 (.inr ⟨_, _, Work.ofReported_eq_ok_iff.2 ⟨planner, rfl⟩, failed⟩)⟩)

theorem TaskFails.fails {u : FileTree} (fails : TaskFails d t i e u) :
    ∃ es, perform d i { tree := t } = .error e { tree := u, events := es } := by
  cases fails with
  | unplanned unplanned =>
    have fault := plannerOf_eq_error_iff.2 unplanned
    exact ⟨(plannerOf t i).events, Work.bind_eq_error_iff.2 (.inr ⟨{ tree := t }, { tree := t }, rfl,
      Work.bind_eq_error_iff.2 (.inl (Work.ofReported_eq_error_iff.2 ⟨fault, rfl⟩))⟩)⟩
  | table loads single task refused =>
    refine ⟨(plannerOf t i).events, error_of_loads loads single ?_⟩
    rw [task]
    exact Work.print_eq_error_iff.2 ⟨_, refused, rfl, rfl⟩
  | @unknown s ds o x loads single plan stop =>
    have units := outcome_manifestOf s ds
    rw [stop] at units
    refine ⟨(plannerOf t i).events ++ (manifestOf (plannerFor s ds)).events,
      error_of_loads loads single ?_⟩
    rw [plan]
    exact Work.bind_eq_error_iff.2 (.inl (Work.ofReported_eq_error_iff.2 ⟨units, rfl⟩))
  | @delivery s ds o e u loads single plan finished undelivered =>
    have units := outcome_manifestOf s ds
    rw [finished] at units
    refine ⟨(plannerOf t i).events ++ (manifestOf (plannerFor s ds)).events,
      error_of_loads loads single ?_⟩
    rw [plan]
    exact Work.bind_eq_error_iff.2
      (.inr ⟨_, _, Work.ofReported_eq_ok_iff.2 ⟨units, rfl⟩, Undelivered.fails undelivered⟩)

end Failures

end CommandLine

end NamespacePlan
