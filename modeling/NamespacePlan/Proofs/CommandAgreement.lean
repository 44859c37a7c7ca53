import NamespacePlan.Proofs.CommonWords
import NamespacePlan.Proofs.JsonRoundTrip
import NamespacePlan.Proofs.TaskStages

/-! The two commands on the same files. They load the same schemas and build the same table, whatever
the switches of the plan are; the table alone decides what a strict plan fails over. -/
namespace NamespacePlan

/-- The entries of a namespace table as they are read from its text. -/
def NamespaceTable.shown (t : NamespaceTable) : List (Value × Value) :=
  Datum.toEntries ((Manifest.sortedEntries t.entries).map fun e => (e.1, .text e.2))

namespace NamespaceTable

theorem toValue_sortedEntries (t : NamespaceTable) :
    (Datum.textFields (Manifest.sortedEntries t.entries)).toValue = .map t.shown := by
  rw [Datum.textFields, Datum.toValue, shown]

theorem text_mem_shown_iff (t : NamespaceTable) (uri : String) :
    .text uri ∈ t.shown.map Prod.fst ↔ uri ∈ t.entries.keys := by
  have keys : ∀ fs : List (String × Datum),
      (Datum.toEntries fs).map Prod.fst = (fs.map Prod.fst).map Value.text := by
    intro fs
    induction fs with
    | nil => rfl
    | cons f fs ih => simp [Datum.toEntries, ih]
  have listed : t.shown.map Prod.fst =
      ((Manifest.sortedEntries t.entries).map Prod.fst).map Value.text := by
    simp only [shown, keys, List.map_map]
    rfl
  rw [listed, List.mem_map]
  simp only [Value.text.injEq, exists_eq_right]
  exact ((Manifest.sortedEntries_perm t.entries).map Prod.fst).mem_iff

end NamespaceTable

namespace CommandLine

variable {t : FileTree}

theorem Loads.unique {i : Invocation} {s s' : Settings} {ds ds' : List Descriptor}
    (left : Loads t i s ds) (right : Loads t i s' ds') : s = s' ∧ ds = ds' := by
  obtain ⟨settings, directory, named, loads⟩ := left
  obtain ⟨settings', directory', named', loads'⟩ := right
  cases settings.symm.trans settings'
  cases named.symm.trans named'
  exact ⟨rfl, Except.ok.inj (loads.symm.trans loads')⟩

theorem stopOf_eq_none_iff {s : Settings} {ds : List Descriptor} : stopOf s ds = none ↔
    s.strict = false ∨ ∀ d ∈ ds, d.target ∈ (plannerFor s ds).table.entries.keys := by
  rw [stopOf]
  cases s.strict <;> simp [Planner.missing]

/-! The switches of a plan. -/

/-- Settings under the switches of a plan. -/
def PlanOptions.switched (o : PlanOptions) (s : Settings) : Settings :=
  { s with optimize := o.optimize.getD s.optimize, strict := o.strict.getD s.strict }

theorem shown_switched (o : PlanOptions) (s : Settings) (ds : List Descriptor) :
    (plannerFor (o.switched s) ds).table.shown = (plannerFor s ds).table.shown := rfl

section Switched

variable {i : Invocation} (task : i.task = .namespaces) (o : PlanOptions)

include task

theorem settingsOf_switched {c : Settings} : settingsOf t { i with task := .plan o } = .ok c ↔
    ∃ s, settingsOf t i = .ok s ∧ c = o.switched s := by
  have applied : ∀ b, Invocation.applied { i with task := .plan o } b = o.switched (i.applied b) := by
    intro b
    simp [Invocation.applied, PlanOptions.switched, task, Task.optimize?, Task.strict?]
  have sound : ∀ s : Settings, (o.switched s).Sound ↔ s.Sound := fun s =>
    ⟨fun h => ⟨h.filled, h.dotted, h.home⟩, fun h => ⟨h.filled, h.dotted, h.home⟩⟩
  simp only [settingsOf_eq_ok_iff, applied, sound]
  constructor
  · rintro ⟨b, base, sound, rfl⟩
    exact ⟨_, ⟨b, base, sound, rfl⟩, rfl⟩
  · rintro ⟨_, ⟨b, base, sound, rfl⟩, rfl⟩
    exact ⟨b, base, sound, rfl⟩

theorem loads_switched {c : Settings} {ds : List Descriptor} :
    Loads t { i with task := .plan o } c ds ↔ ∃ s, Loads t i s ds ∧ c = o.switched s := by
  constructor
  · rintro ⟨settings, schemas⟩
    obtain ⟨s, own, rfl⟩ := (settingsOf_switched task o).1 settings
    exact ⟨s, ⟨own, schemas⟩, rfl⟩
  · rintro ⟨s, ⟨settings, schemas⟩, rfl⟩
    exact ⟨(settingsOf_switched task o).2 ⟨s, settings, rfl⟩, schemas⟩

end Switched

/-! What the commands print. -/

/-- A line of data is read back with its end. -/
theorem read_line {d : Datum} (distinct : d.DistinctKeys) :
    Json.read (Json.render d ++ "\n").toList = .ok d.toValue := by
  rw [String.toList_append]
  exact Json.read_render_append distinct rfl

theorem read_tableText (p : Planner) :
    Json.read (tableText p ++ "\n").toList = .ok (.map p.table.shown) := by
  have keys := ((Manifest.sortedEntries_perm p.table.entries).map Prod.fst).nodup_iff.2
    p.table.entries.nodup_keys
  rw [tableText, read_line (Datum.distinctKeys_textFields keys), p.table.toValue_sortedEntries]

/-- The fields of a manifest, one of which is the table. -/
theorem read_manifestText (s : Settings) (ds : List Descriptor) :
    ∃ fields, Json.read ((manifestFor s ds).text .json ++ "\n").toList = .ok (.map fields) ∧
      (.text "namespaces", .map (plannerFor s ds).table.shown) ∈ fields := by
  have distinct := Manifest.distinctKeys_toDatum
    (Manifest.nodup_keys_of (ds.map fun d => (plannerFor s ds).unitOf d.target)
      (plannerFor s ds).table.entries s.root s.optimize)
  have table : (Datum.textFields (manifestFor s ds).namespaces).toValue =
      .map (plannerFor s ds).table.shown := (plannerFor s ds).table.toValue_sortedEntries
  have field : (.text "namespaces", (Datum.textFields (manifestFor s ds).namespaces).toValue) ∈
      Datum.toEntries (manifestFor s ds).fields := by
    simp [Manifest.fields, Datum.toEntries]
  rw [table] at field
  exact ⟨_, read_line distinct, field⟩

section Runs

variable {args : List String} {i : Invocation} (reads : read args = .ok i)

include reads

theorem exit_namespaces_iff (task : i.task = .namespaces) : (run t args).exit = .ok 0 ↔
    (∃ least, Log.threshold? i.logLevel = some least) ∧
      ∃ s ds, Loads t i s ds ∧ SinglePrefix ds := by
  rw [exit_eq_zero_iff reads]
  simp only [perform_namespaces_iff task]
  refine and_congr_right fun _ => ?_
  constructor
  · rintro ⟨_, s, ds, loads, single, _⟩
    exact ⟨s, ds, loads, single⟩
  · rintro ⟨s, ds, loads, single⟩
    exact ⟨_, s, ds, loads, single, rfl⟩

theorem stdout_namespaces (task : i.task = .namespaces) {s : Settings} {ds : List Descriptor}
    (fine : (run t args).exit = .ok 0) (loads : Loads t i s ds) :
    (run t args).stdout = tableText (plannerFor s ds) ++ "\n" := by
  obtain ⟨⟨least, threshold⟩, w, performed⟩ := (exit_eq_zero_iff reads).1 fine
  obtain ⟨s', ds', loads', _, rfl⟩ := (perform_namespaces_iff task).1 performed
  obtain ⟨rfl, rfl⟩ := loads.unique loads'
  rw [run, runOn_of_performed reads threshold performed, Ending.stdout]

variable {o : PlanOptions} (plan : i.task = .plan o) (printed : o.output = none)

include plan printed

theorem exit_plan_iff : (run t args).exit = .ok 0 ↔
    (∃ least, Log.threshold? i.logLevel = some least) ∧
      ∃ s ds, Loads t i s ds ∧ SinglePrefix ds ∧ stopOf s ds = none := by
  rw [exit_eq_zero_iff reads]
  simp only [perform_plan_iff plan, deliver_printed printed]
  refine and_congr_right fun _ => ?_
  constructor
  · rintro ⟨_, s, ds, loads, single, stop, _⟩
    exact ⟨s, ds, loads, single, stop⟩
  · rintro ⟨s, ds, loads, single, stop⟩
    exact ⟨_, s, ds, loads, single, stop, rfl⟩

theorem stdout_plan {s : Settings} {ds : List Descriptor} (fine : (run t args).exit = .ok 0)
    (loads : Loads t i s ds) : (run t args).stdout = (manifestFor s ds).text o.format ++ "\n" := by
  obtain ⟨⟨least, threshold⟩, w, performed⟩ := (exit_eq_zero_iff reads).1 fine
  obtain ⟨s', ds', loads', _, _, delivered⟩ := (perform_plan_iff plan).1 performed
  obtain ⟨rfl, rfl⟩ := loads.unique loads'
  rw [deliver_printed printed] at delivered
  cases delivered
  rw [run, runOn_of_performed reads threshold performed]
  exact String.empty_append

end Runs

/-! Both commands. -/

/-- The first run prints a table, the second one a manifest with that table in it; and the second one
ends well if the first one does, unless it is strict and a schema has a namespace without a key. -/
structure Agree (t : FileTree) (args args' : List String) : Prop where
  object : (run t args).exit = .ok 0 →
    ∃ table, Json.read (run t args).stdout.toList = .ok (.map table)
  manifest : (run t args').exit = .ok 0 → ∃ table fields,
    Json.read (run t args).stdout.toList = .ok (.map table) ∧
    Json.read (run t args').stdout.toList = .ok (.map fields) ∧
    (.text "namespaces", .map table) ∈ fields
  exit : (run t args').exit = .ok 0 ↔ (run t args).exit = .ok 0 ∧ ∃ table i s ds,
    Json.read (run t args).stdout.toList = .ok (.map table) ∧ read args' = .ok i ∧
    Loads t i s ds ∧ (s.strict = false ∨ ∀ d ∈ ds, .text d.target ∈ table.map Prod.fst)

theorem agree_of_read {args args' : List String} {i : Invocation} {o : PlanOptions}
    (reads : read args = .ok i) (task : i.task = .namespaces)
    (reads' : read args' = .ok { i with task := .plan o }) (json : o.format = .json)
    (printed : o.output = none) : Agree t args args' := by
  have exits := exit_namespaces_iff (t := t) reads task
  have exits' := exit_plan_iff (t := t) reads' rfl printed
  have table : ∀ {s ds}, (run t args).exit = .ok 0 → Loads t i s ds →
      Json.read (run t args).stdout.toList = .ok (.map (plannerFor s ds).table.shown) := by
    intro s ds fine loads
    rw [stdout_namespaces reads task fine loads]
    exact read_tableText _
  have fine_of : (run t args').exit = .ok 0 → (run t args).exit = .ok 0 := by
    intro fine'
    obtain ⟨threshold, c, ds, loads, single, _⟩ := exits'.1 fine'
    obtain ⟨s, loads, _⟩ := (loads_switched task o).1 loads
    exact exits.2 ⟨threshold, s, ds, loads, single⟩
  refine ⟨fun fine => ?_, fun fine' => ?_, fun fine' => ?_, ?_⟩
  · obtain ⟨_, s, ds, loads, _⟩ := exits.1 fine
    exact ⟨_, table fine loads⟩
  · obtain ⟨_, c, ds, loads', _⟩ := exits'.1 fine'
    obtain ⟨s, loads, rfl⟩ := (loads_switched task o).1 loads'
    obtain ⟨fields, read', member⟩ := read_manifestText (o.switched s) ds
    rw [shown_switched] at member
    refine ⟨_, fields, table (fine_of fine') loads, ?_, member⟩
    rw [stdout_plan reads' rfl printed fine' loads', json]
    exact read'
  · obtain ⟨_, c, ds, loads', _, stop⟩ := exits'.1 fine'
    obtain ⟨s, loads, rfl⟩ := (loads_switched task o).1 loads'
    refine ⟨fine_of fine', _, _, _, ds, table (fine_of fine') loads, reads', loads', ?_⟩
    rw [← shown_switched o]
    simp only [NamespaceTable.text_mem_shown_iff]
    exact stopOf_eq_none_iff.1 stop
  · rintro ⟨fine, entries, j, c, ds, shown, again, loads', known⟩
    cases reads'.symm.trans again
    obtain ⟨s, loads, rfl⟩ := (loads_switched task o).1 loads'
    obtain ⟨threshold, s', ds', loaded, single⟩ := exits.1 fine
    obtain ⟨rfl, rfl⟩ := loads.unique loaded
    cases shown.symm.trans (table fine loads)
    rw [← shown_switched o] at known
    simp only [NamespaceTable.text_mem_shown_iff] at known
    exact exits'.2 ⟨threshold, _, _, loads', single, stopOf_eq_none_iff.2 known⟩

theorem agree_of_misuse {args args' : List String} {c c' : Command} {m m' : Misuse}
    (stops : read args = .error (.misuse c m)) (stops' : read args' = .error (.misuse c' m')) :
    Agree t args args' := by
  have failed : (run t args).exit ≠ .ok 0 := by simp [run, runOn, stops, Ending.exit]
  have failed' : (run t args').exit ≠ .ok 0 := by simp [run, runOn, stops', Ending.exit]
  exact ⟨fun fine => absurd fine failed, fun fine => absurd fine failed',
    fun fine => absurd fine failed', fun fine => absurd fine.1 failed⟩

/-- The commands agree where they are read to differ in their tasks only, and with switches around the
same words. -/
theorem commands_agree (t : FileTree) :
    (∀ args args' i o, read args = .ok i → i.task = .namespaces →
      read args' = .ok { i with task := .plan o } → o.format = .json → o.output = none →
      Agree t args args') ∧
    ∀ args front back, Common args → (∀ f ∈ front ++ back, f.Switch) →
      (back = [] ∨ "--" ∉ args) →
      Agree t ("namespaces" :: args) ("plan" :: aroundCommon front args back) := by
  constructor
  · intro args args' i o reads task reads' json printed
    exact agree_of_read reads task reads' json printed
  · intro args front back common switches behind
    cases read_common common switches behind with
    | read reads task reads' => exact agree_of_read reads task reads' rfl rfl
    | misuse stops stops' => exact agree_of_misuse stops stops'

/-- The only schema has a namespace without a key, over which a strict plan fails. -/
theorem oneSchema_agrees : (run oneSchema ["namespaces", "."]).exit = .ok 0 ∧
    (run oneSchema ["plan", ".", "--strict"]).exit ≠ .ok 0 ∧
    ∃ table fields,
      Json.read (run oneSchema ["namespaces", "."]).stdout.toList = .ok (.map table) ∧
      Json.read (run oneSchema ["plan", "--optimize", "."]).stdout.toList = .ok (.map fields) ∧
      (.text "namespaces", .map table) ∈ fields := by
  have common : Common ["."] := common_of_words (by simpa using CommonWord.plain (by decide))
  have strict : Agree oneSchema ["namespaces", "."] ["plan", ".", "--strict"] :=
    (commands_agree oneSchema).2 ["."] [] [.strict true] common (by simp [Flag.Switch])
      (.inr (by decide))
  have optimize : Agree oneSchema ["namespaces", "."] ["plan", "--optimize", "."] :=
    (commands_agree oneSchema).2 ["."] [.optimize true] [] common (by simp [Flag.Switch]) (.inl rfl)
  have reads : read ["namespaces", "."] =
      .ok { source := { schemaDir := some "." }, task := .namespaces } := rfl
  have loads : Loads oneSchema { source := { schemaDir := some "." }, task := .namespaces }
      { schemaDir := some "." } [oneDescriptor] := loads_oneSchema rfl rfl
  have switched : ∀ o, Loads oneSchema { source := { schemaDir := some "." }, task := .plan o }
      (o.switched { schemaDir := some "." }) [oneDescriptor] := fun o =>
    (loads_switched rfl o).2 ⟨_, loads, rfl⟩
  have fine : (run oneSchema ["namespaces", "."]).exit = .ok 0 :=
    (exit_namespaces_iff reads rfl).2 ⟨⟨_, rfl⟩, _, _, loads, by decide +kernel⟩
  obtain ⟨table, shown⟩ := strict.object fine
  have fine' : (run oneSchema ["plan", "--optimize", "."]).exit = .ok 0 :=
    optimize.exit.2 ⟨fine, table, _, _, _, shown, rfl, switched { optimize := some true }, .inl rfl⟩
  refine ⟨fine, fun ends => ?_, optimize.manifest fine'⟩
  obtain ⟨_, again, _, s, ds, shown', reads', loads', known⟩ := strict.exit.1 ends
  have strictly : read ["plan", ".", "--strict"] =
      .ok { source := { schemaDir := some "." }, task := .plan { strict := some true } } := rfl
  cases strictly.symm.trans reads'
  obtain ⟨rfl, rfl⟩ := (switched { strict := some true }).unique loads'
  have printed : (run oneSchema ["namespaces", "."]).stdout =
      tableText (plannerFor { schemaDir := some "." } [oneDescriptor]) ++ "\n" :=
    stdout_namespaces reads rfl fine loads
  rw [printed, read_tableText] at shown'
  cases shown'
  rcases known with lenient | all
  · cases lenient
  · have key := all oneDescriptor (List.mem_singleton_self _)
    rw [NamespaceTable.text_mem_shown_iff] at key
    revert key
    decide +kernel

end CommandLine

end NamespacePlan
