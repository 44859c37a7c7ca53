import NamespacePlan.CommandLine.Invocation
import NamespacePlan.CommandLine.Work

/-!
Carrying out a command line on a tree of files. A run reads settings and schemas first; it writes only
when it has a manifest, and prints last.
-/

namespace NamespacePlan.CommandLine

/-! Tasks. -/

def overridesOf (i : Invocation) : List (Value × Value) :=
  let text := fun (name : String) (v : Option String) =>
    (Value.text name, (v.map Value.text).getD .null)
  let switch := fun (name : String) (v : Option Bool) =>
    (Value.text name, (v.map Value.bool).getD .null)
  let switches := match i.task with
    | .plan o => [switch "optimize" o.optimize, switch "strict" o.strict]
    | .namespaces => []
  [text "root_namespace" i.source.root] ++ switches ++ [text "schema_dir" i.source.schemaDir]

/-- The settings of a run: those of the file, if one is named, under those of the command line. -/
def settingsOf (t : FileTree) (i : Invocation) : Except SettingsError Settings :=
  let base : Except SettingsError Settings := match i.source.config with
    | none => .ok {}
    | some path => if path = "" then .ok {} else SettingsFile.load t path
  match base with
  | .error e => .error e
  | .ok s => (s.merged (overridesOf i)).mapError .invalid

def plannerOf (t : FileTree) (i : Invocation) : Reported TaskError Planner := do
  let s ← .ofExcept ((settingsOf t i).mapError .settings)
  match s.schemaDir with
  | none => .fail .noDirectory
  | some directory =>
    let ds ← (SchemaSet.load t directory).mapError .schema
    (Planner.build ds s.root s.optimize s.strict s.home).mapError .plan

def manifestOf (p : Planner) : Reported TaskError Manifest := do
  let units ← p.planAll.mapError .plan
  pure (Manifest.of units p.table.entries p.table.root p.resolver.optimize)

def tableText (p : Planner) : String :=
  Json.render (Datum.textFields (Manifest.sortedEntries p.table.entries))

def summary (m : Manifest) (path : String) : String :=
  "✅ Wrote " ++ toString m.units.length ++ " units to " ++ path

/-- Writes a manifest to its file, if one is named, and says so; or else prints it. -/
def deliver (d : Device) (o : PlanOptions) (m : Manifest) : Work Unit :=
  match o.output.filter (· ≠ "") with
  | none => Work.print d (m.text o.format ++ "\n")
  | some path => do
    let place ← Work.openFile path
    Work.write d place (m.text o.format)
    Work.print d (summary m path ++ "\n")

def carryOut (d : Device) (task : Task) (p : Planner) : Work Unit :=
  match task with
  | .namespaces => Work.print d (tableText p ++ "\n")
  | .plan o => do
    let m ← Work.ofReported (manifestOf p)
    deliver d o m

def perform (d : Device) (i : Invocation) : Work Unit := do
  let w ← get
  let p ← Work.ofReported (plannerOf w.tree i)
  carryOut d i.task p

/-! Runs. -/

/-- What a run has been about, and how its work has ended. -/
inductive Course where
  | misused (c : Command) (m : Misuse)
  | helped (done : Except TaskError Unit)
  | badThreshold (name : String)
  /-- The task was tried; `least` is the threshold of its log. -/
  | tried (i : Invocation) (least : Nat) (done : Except TaskError Unit)

structure Ending where
  course : Course
  world : World

def Ending.ofWork (course : Except TaskError Unit → Course) :
    EStateM.Result TaskError World Unit → Ending
  | .ok u w => ⟨course (.ok u), w⟩
  | .error e w => ⟨course (.error e), w⟩

def runOn (d : Device) (t : FileTree) (args : List String) : Ending :=
  match read args with
  | .error (.help c) => .ofWork .helped (Work.print d c.help { tree := t })
  | .error (.misuse c m) => ⟨.misused c m, { tree := t }⟩
  | .ok i =>
    match Log.threshold? i.logLevel with
    | none => ⟨.badThreshold i.logLevel, { tree := t }⟩
    | some least => .ofWork (.tried i least) (perform d i { tree := t })

/-- A run that can write and print whatever it has to. -/
def run (t : FileTree) (args : List String) : Ending := runOn {} t args

def Task.complaint : Task → String
  | namespaces => "Error building namespace table: "
  | plan _ => "Error planning units: "

namespace Ending

/-- The exit code of a run, unless it ends by a failure that is none of the user's task; then the
wording of that failure. -/
def exit (e : Ending) : Except String Nat :=
  match e.course with
  | .misused _ _ => .ok 2
  | .helped (.ok _) => .ok 0
  | .helped (.error e) => .error e.message
  | .badThreshold _ => .error "Unable to configure logger ''"
  | .tried _ _ (.ok _) => .ok 0
  | .tried _ _ (.error _) => .ok 1

def stdout (e : Ending) : String := e.world.stdout

def tree (e : Ending) : FileTree := e.world.tree

def errorLine (task : Task) (e : TaskError) : String :=
  task.complaint ++ e.message ++ ((e.details?.map (": " ++ ·)).getD "") ++ "\n"

def stderr (time : String) (e : Ending) : String :=
  match e.course with
  | .misused c m => c.usage ++ c.name ++ ": error: " ++ m.message ++ "\n"
  | .tried i least done =>
    let lines := (Log.passing least e.world.events).map (Log.line i.logForm time)
    let last := match done with
      | .ok _ => ""
      | .error e => errorLine i.task e
    String.join lines ++ last
  | _ => ""

end Ending

end NamespacePlan.CommandLine
