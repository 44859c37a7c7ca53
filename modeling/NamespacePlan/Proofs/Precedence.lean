import NamespacePlan.Proofs.CommandFlags
import NamespacePlan.Proofs.JsonRoundTrip
import NamespacePlan.Proofs.SettingsFaults
import NamespacePlan.Proofs.TaskStages
import NamespacePlan.Proofs.TreeGrowth

/-! Flags over a configuration file. A plan that is given flags ends and prints as one that is given the
file in which the fields of the flags have been replaced. -/
namespace NamespacePlan.CommandLine

open Text

namespace Flag

/-- Settings, their fields replaced by the flags there are: by the last one of each field. -/
def overlaid (fs : List Flag) (directory : Option String) (c : Settings) : Settings where
  root := (fs.filterMap root?).getLast?.getD c.root
  optimize := (fs.filterMap optimize?).getLast?.getD c.optimize
  strict := (fs.filterMap strict?).getLast?.getD c.strict
  schemaDir := directory.or c.schemaDir
  home := c.home

/-- The same format, the settings from one file, and nothing else. -/
def brief (path : String) (fs : List Flag) : List Flag :=
  config path :: (fs.filterMap format?).map format

section Brief

variable (path : String) (fs : List Flag)

/-- No flag of another kind is left. -/
theorem filterMap_brief {α : Type} {pick : Flag → Option α} (none_ : ∀ s, pick (format s) = none) :
    (brief path fs).filterMap pick = (pick (config path)).toList := by
  have rest : ((fs.filterMap format?).map format).filterMap pick = [] := by
    rw [List.filterMap_map, List.filterMap_eq_nil_iff]
    exact fun s _ => none_ s
  rw [brief, List.filterMap_cons, rest]
  cases pick (config path) <;> rfl

theorem formats_brief : (brief path fs).filterMap format? = fs.filterMap format? := by
  rw [brief, List.filterMap_cons, List.filterMap_map]
  exact List.filterMap_some

theorem configs_brief : ((brief path fs).filterMap config?).getLast? = some path := by
  rw [filterMap_brief path fs fun _ => rfl]
  rfl

theorem overlaid_brief (c : Settings) : overlaid (brief path fs) none c = c := by
  have roots : (brief path fs).filterMap root? = [] := filterMap_brief path fs fun _ => rfl
  have optimizes : (brief path fs).filterMap optimize? = [] := filterMap_brief path fs fun _ => rfl
  have stricts : (brief path fs).filterMap strict? = [] := filterMap_brief path fs fun _ => rfl
  rw [overlaid, roots, optimizes, stricts]
  rfl

theorem unknown_brief : (∃ f ∈ brief path fs, ¬f.Known) ↔ ∃ f ∈ fs, ¬f.Known := by
  have formats : ∀ s, s ∈ fs.filterMap format? ↔ format s ∈ fs := by
    intro s
    rw [List.mem_filterMap]
    constructor
    · rintro ⟨f, member, same⟩
      cases f <;> cases same
      exact member
    · exact fun member => ⟨_, member, rfl⟩
  constructor
  · rintro ⟨f, member, unknown⟩
    rcases List.mem_cons.1 member with rfl | member
    · exact absurd trivial unknown
    · obtain ⟨s, listed, rfl⟩ := List.mem_map.1 member
      exact ⟨_, (formats s).1 listed, unknown⟩
  · rintro ⟨f, member, unknown⟩
    cases f with
    | format s =>
      exact ⟨_, List.mem_cons_of_mem _ (List.mem_map_of_mem ((formats s).2 member)), unknown⟩
    | _ => exact absurd trivial unknown

end Brief

end Flag

/-! The settings. -/

theorem merged_flags (c : Settings) (fs : List Flag) (directory : Option String) :
    c.merged (overridesOf (Flag.invocation fs directory)) =
      Settings.ofEntries (Flag.overlaid fs directory c).entries :=
  merged_overrides c (Flag.invocation fs directory)

section Settings

variable {t : FileTree} {fs : List Flag} {directory : Option String} {path : String}
  (config : (fs.filterMap Flag.config?).getLast? = some path) (nonempty : path ≠ "")

include config nonempty

/-- What is loaded from the file, under the flags. -/
theorem settingsOf_flags : settingsOf t (Flag.invocation fs directory) =
    (SettingsFile.load t path).bind fun c =>
      (Settings.ofEntries (Flag.overlaid fs directory c).entries).mapError .invalid := by
  have named : (Flag.invocation fs directory).source.config = some path := config
  unfold settingsOf
  rw [named]
  dsimp only
  rw [if_neg nonempty]
  cases SettingsFile.load t path with
  | error e => rfl
  | ok c =>
    dsimp only
    rw [merged_flags]
    rfl

theorem settingsOf_flags_iff {c x : Settings} (loads : SettingsFile.load t path = .ok c) :
    settingsOf t (Flag.invocation fs directory) = .ok x ↔
      (Flag.overlaid fs directory c).Sound ∧ x = (Flag.overlaid fs directory c).tidied := by
  rw [settingsOf_flags config nonempty, loads]
  exact mapError_eq_ok_iff.trans (Settings.ofEntries_eq_ok_iff (.refl _))

end Settings

/-! A file that holds settings. -/

theorem endsWith_iff {path ending : String} :
    path.endsWith ending = true ↔ ending.toList <:+ path.toList := by
  rw [String.endsWith_eq_endsWith_toSlice, String.Slice.endsWith_string_iff]
  simp

section Json

variable {path : String} (json : path.endsWith ".json" = true)

include json

theorem getLast?_json : path.toList.getLast? = some 'n' := by
  obtain ⟨front, letters⟩ := endsWith_iff.1 json
  simp [← letters]

theorem isYaml_json : SettingsFile.isYaml path = false := by
  have other : ∀ ending : String, ending.toList.getLast? = some 'l' → path.endsWith ending = false := by
    intro ending letter
    rw [Bool.eq_false_iff]
    intro ends
    obtain ⟨front, letters⟩ := endsWith_iff.1 ends
    have last := getLast?_json json
    rw [← letters, List.getLast?_append, letter] at last
    cases last
  rw [SettingsFile.isYaml, other ".yaml" rfl, other ".yml" rfl]
  rfl

variable {t : FileTree} {bytes : List UInt8} {cs : List Char} {es : List (Value × Value)}
  (decodes : Utf8.decode bytes = .ok cs) (reads : Json.read (plainLines cs) = .ok (.map es))

include decodes reads

theorem load_entries (file : t.find? path = some (.file bytes)) :
    SettingsFile.load t path = (Settings.ofEntries es).mapError .invalid := by
  have unlimited : Json.readWithin none (plainLines cs) = .ok (.map es) := reads
  rw [SettingsFile.load, SettingsFile.loadWith_of_file file,
    SettingsFile.read_of_json (isYaml_json json), SettingsFile.readJson_of_text decodes, unlimited]
  rfl

/-- Settings in a file come to what they come to under flags. -/
theorem settingsOf_brief (file : t.find? path = some (.file bytes)) (fs : List Flag) {s : Settings}
    (holds : es.Perm s.entries) {x : Settings} :
    settingsOf t (Flag.invocation (Flag.brief path fs) none) = .ok x ↔ s.Sound ∧ x = s.tidied := by
  have nonempty : path ≠ "" := by
    rintro rfl
    cases getLast?_json json
  have loads : ∀ c, SettingsFile.load t path = .ok c ↔ s.Sound ∧ c = s.tidied := by
    intro c
    rw [load_entries json decodes reads file]
    exact mapError_eq_ok_iff.trans (Settings.ofEntries_eq_ok_iff holds)
  by_cases sound : s.Sound
  · rw [settingsOf_flags_iff (Flag.configs_brief path fs) nonempty ((loads _).2 ⟨sound, rfl⟩),
      Flag.overlaid_brief, s.tidied_tidied]
    exact ⟨fun h => ⟨sound, h.2⟩, fun h => ⟨sound.tidied, h.2⟩⟩
  · refine ⟨fun h => ?_, fun h => absurd h.1 sound⟩
    rw [settingsOf_flags (Flag.configs_brief path fs) nonempty] at h
    cases loaded : SettingsFile.load t path with
    | ok c => exact absurd ((loads c).1 loaded).1 sound
    | error e =>
      rw [loaded] at h
      cases h

end Json

/-! The same settings and the same schemas. -/

/-- Two runs that exit alike and print the same. -/
structure Ending.Alike (e e' : Ending) : Prop where
  exit : e.exit = e'.exit
  stdout : e.stdout = e'.stdout

/-- Work that ends well on both sides with the same on show, or fails on both, ends alike: what fails
has shown nothing. -/
theorem alike_tried {t u : FileTree} {i j : Invocation} {m n : Nat}
    (same : ∀ out, (∃ w, perform {} i { tree := t } = .ok () w ∧ w.stdout = out) ↔
      ∃ w, perform {} j { tree := u } = .ok () w ∧ w.stdout = out) :
    Ending.Alike (.ofWork (.tried i m) (perform {} i { tree := t }))
      (.ofWork (.tried j n) (perform {} j { tree := u })) := by
  cases left : perform {} i { tree := t } with
  | ok _ w =>
    obtain ⟨v, right, shown⟩ := (same w.stdout).1 ⟨w, left, rfl⟩
    rw [right]
    exact ⟨rfl, shown.symm⟩
  | error e w =>
    cases right : perform {} j { tree := u } with
    | ok _ v =>
      obtain ⟨_, fine, _⟩ := (same v.stdout).2 ⟨v, right, rfl⟩
      cases left.symm.trans fine
    | error f v =>
      have silent : w.stdout = v.stdout :=
        (taskFails_of_error left).2.trans (taskFails_of_error right).2.symm
      exact ⟨rfl, silent⟩

theorem perform_printed_iff {t : FileTree} {i : Invocation} {o : PlanOptions} (plan : i.task = .plan o)
    (printed : o.output = none) (out : String) :
    (∃ w, perform {} i { tree := t } = .ok () w ∧ w.stdout = out) ↔ ∃ p m,
      (plannerOf t i).outcome = .ok p ∧ (manifestOf p).outcome = .ok m ∧
      m.text o.format ++ "\n" = out := by
  simp only [perform_plan_eq_ok_iff plan, deliver_printed printed]
  constructor
  · rintro ⟨_, ⟨p, m, planner, manifest, ⟨⟩⟩, rfl⟩
    exact ⟨p, m, planner, manifest, String.empty_append.symm⟩
  · rintro ⟨p, m, planner, manifest, rfl⟩
    exact ⟨_, ⟨p, m, planner, manifest, rfl⟩, String.empty_append⟩

/-- The invocation under options that stand in front of the command. -/
def Invocation.logged (i : Invocation) (level : String) (form : Log.Form) : Invocation :=
  { i with logLevel := level, logForm := form }

section Same

variable {t u : FileTree} {i j : Invocation} {o q : PlanOptions}
  (settings : ∀ s, settingsOf t i = .ok s ↔ settingsOf u j = .ok s)
  (schemas : ∀ d, SchemaSet.load t d = SchemaSet.load u d)

include settings schemas

theorem plannerOf_alike (p : Planner) :
    (plannerOf t i).outcome = .ok p ↔ (plannerOf u j).outcome = .ok p := by
  simp only [plannerOf_eq_ok_iff, settings, schemas]

variable (plan : i.task = .plan o) (plan' : j.task = .plan q) (printed : o.output = none)
  (printed' : q.output = none) (format : o.format = q.format)

include plan plan' printed printed' format

theorem run_alike {args args' : List String} {level : String} {form : Log.Form}
    (reads : read args = .ok (i.logged level form)) (reads' : read args' = .ok (j.logged level form)) :
    Ending.Alike (run t args) (run u args') := by
  unfold run runOn
  rw [reads, reads']
  dsimp only [Invocation.logged]
  cases Log.threshold? level with
  | none => exact ⟨rfl, rfl⟩
  | some least =>
    refine alike_tried fun out => ?_
    have planned : (i.logged level form).task = .plan o := plan
    have planned' : (j.logged level form).task = .plan q := plan'
    have planners : ∀ p, (plannerOf t (i.logged level form)).outcome = .ok p ↔
        (plannerOf u (j.logged level form)).outcome = .ok p := plannerOf_alike settings schemas
    rw [← Invocation.logged, ← Invocation.logged, perform_printed_iff planned printed,
      perform_printed_iff planned' printed', format]
    simp only [planners]

end Same

/-- A misuse is told before anything is done. -/
theorem alike_of_misuse {t u : FileTree} {args args' : List String} {c c' : Command} {m m' : Misuse}
    (stops : read args = .error (.misuse c m)) (stops' : read args' = .error (.misuse c' m')) :
    Ending.Alike (run t args) (run u args') := by
  unfold run runOn
  rw [stops, stops']
  exact ⟨rfl, rfl⟩

/-! A new file. -/

theorem exists_grown {t : FileTree} (proper : t.root.Proper) {path : String} (fileable : t.Fileable path)
    (new : t.find? path = none) (json : path.endsWith ".json" = true) {place : List String}
    (writable : t.writable path = .ok place) (bytes : List UInt8) :
    (t.put place bytes).find? path = some (.file bytes) ∧
      ∃ around last, t.Grown (t.put place bytes) bytes around last := by
  obtain ⟨around, last, named, writable', inside, found, located⟩ := fileable.exists_place
  obtain rfl : place = around ++ [last] := Except.ok.inj (writable.symm.trans writable')
  have ending : last.toList.getLast? ≠ some 'd' := by
    obtain ⟨front, last', parts, letter⟩ := Path.exists_last_letter (getLast?_json json) (by decide)
    rw [parts, List.getLast?_concat, Option.some.injEq] at named
    rw [← named, letter]
    decide
  have grown : t.Grown (t.put (around ++ [last]) bytes) bytes around last :=
    FileTree.grown_put proper inside (found.symm.trans new) ending
  refine ⟨?_, around, last, grown⟩
  rw [FileTree.find?, located _ _ grown.written]
  exact grown.written.written

/-- A file that was there is loaded as it was. -/
theorem load_grown {t u : FileTree} {bytes : List UInt8} {around : List String} {last : String}
    (grown : t.Grown u bytes around last) {path : String} {c : Settings}
    (loads : SettingsFile.load t path = .ok c) : SettingsFile.load u path = .ok c := by
  have seen := grown.find? path
  unfold SettingsFile.load SettingsFile.loadWith at loads ⊢
  generalize t.find? path = x, u.find? path = y at seen loads ⊢
  cases seen with
  | none => cases loads
  | new => cases loads
  | some grows =>
    cases grows with
    | same => exact loads
    | here => cases loads
    | inside => cases loads

section Lines

variable {v u : FileTree} {fs : List Flag} {directory : Option String} {fresh : String}
  (settings : ∀ s, settingsOf v (Flag.invocation fs directory) = .ok s ↔
    settingsOf u (Flag.invocation (Flag.brief fresh fs) none) = .ok s)
  (schemas : ∀ d, SchemaSet.load v d = SchemaSet.load u d)

include settings schemas

theorem alike_of_read {args args' : List String} (level : String) (form : Log.Form)
    (reads : read args = .ok ((Flag.invocation fs directory).logged level form))
    (reads' : read args' = .ok ((Flag.invocation (Flag.brief fresh fs) none).logged level form)) :
    (run v args).Alike (run u args') := by
  refine run_alike settings schemas rfl rfl rfl rfl ?_ reads reads'
  dsimp only
  rw [Flag.formats_brief]

/-- Both lines are read, or neither is, as they ask for the same formats. -/
theorem alike_behindPlan (plain : ∀ d ∈ directory, d.toList.head? ≠ some '-') {front back : List Flag}
    (parts : fs = front ++ back) : (run v ("plan" :: behindPlan front directory back)).Alike
      (run u ("plan" :: (Flag.brief fresh fs).map Flag.word)) := by
  subst parts
  have bare : ∀ d ∈ (none : Option String), d.toList.head? ≠ some '-' := fun _ none_ => nomatch none_
  have words : (Flag.brief fresh (front ++ back)).map Flag.word =
      behindPlan (Flag.brief fresh (front ++ back)) none [] := (List.append_nil _).symm
  have same := Flag.unknown_brief fresh (front ++ back)
  rw [← List.append_nil (Flag.brief fresh (front ++ back))] at same
  rw [words]
  by_cases unknown : ∃ f ∈ front ++ back, ¬f.Known
  · obtain ⟨_, stops⟩ := read_unknown plain unknown
    obtain ⟨_, stops'⟩ := read_unknown bare (same.2 unknown)
    exact alike_of_misuse stops stops'
  · have known : ∀ gs : List Flag, (¬∃ f ∈ gs, ¬f.Known) → ∀ f ∈ gs, f.Known := by
      intro gs none_ f member
      exact by_contra fun bad => none_ ⟨f, member, bad⟩
    have reads := read_flags plain (known _ unknown)
    have reads' := read_flags bare (known _ (mt same.1 unknown))
    rw [List.append_nil] at reads'
    exact alike_of_read settings schemas "WARNING" .plain reads reads'

end Lines

/-- A plan under flags, with a configuration file, goes as the plan with only the file in which the
fields of the flags have been replaced. -/
theorem flags_over_config {t : FileTree} (proper : t.root.Proper) {fs : List Flag}
    {directory : Option String} {path : String}
    (config : (fs.filterMap Flag.config?).getLast? = some path) (nonempty : path ≠ "") {c : Settings}
    (loads : SettingsFile.load t path = .ok c) {fresh : String} (fileable : t.Fileable fresh)
    (new : t.find? fresh = none) (json : fresh.endsWith ".json" = true) {place : List String}
    (writable : t.writable fresh = .ok place) {bytes : List UInt8} {cs : List Char}
    (decodes : Utf8.decode bytes = .ok cs) {es : List (Value × Value)}
    (reads : Json.read (plainLines cs) = .ok (.map es))
    (holds : es.Perm (Flag.overlaid fs directory c).entries) {v : FileTree}
    (either : v = t ∨ v = t.put place bytes) :
    ((∀ d ∈ directory, d.toList.head? ≠ some '-') → ∀ front back, fs = front ++ back →
      (run v ("plan" :: behindPlan front directory back)).Alike
        (run (t.put place bytes) ("plan" :: (Flag.brief fresh fs).map Flag.word))) ∧
    ∀ args args' level form, read args = .ok ((Flag.invocation fs directory).logged level form) →
      read args' = .ok ((Flag.invocation (Flag.brief fresh fs) none).logged level form) →
      (run v args).Alike (run (t.put place bytes) args') := by
  obtain ⟨file, around, last, grown⟩ := exists_grown proper fileable new json writable bytes
  have loads' : SettingsFile.load v path = .ok c := by
    rcases either with rfl | rfl
    · exact loads
    · exact load_grown grown loads
  have schemas : ∀ d, SchemaSet.load v d = SchemaSet.load (t.put place bytes) d := by
    intro d
    rcases either with rfl | rfl
    · exact (SchemaSet.load_grown grown d).symm
    · rfl
  have settings : ∀ s, settingsOf v (Flag.invocation fs directory) = .ok s ↔
      settingsOf (t.put place bytes) (Flag.invocation (Flag.brief fresh fs) none) = .ok s := by
    intro s
    rw [settingsOf_flags_iff config nonempty loads',
      settingsOf_brief json decodes reads file fs holds]
  exact ⟨fun plain _ _ parts => alike_behindPlan settings schemas plain parts,
    fun _ _ level form asks asks' => alike_of_read settings schemas level form asks asks'⟩

/-! A file that is written is read as what it holds. -/

def jsonBytes (d : Datum) : List UInt8 := (Json.render d).toUTF8.toList

theorem decode_jsonBytes (d : Datum) : Utf8.decode (jsonBytes d) = .ok (Json.render d).toList := by
  rw [Utf8.decode_eq_ok_iff, String.ofList_toList]
  rfl

/-- Settings in which only the home and one switch are not the first ones. -/
def homeSettings : Datum := .object [("project_home", .text "h"), ("optimize", .bool true)]

/-- The same settings with a root and a directory, and without the switch. -/
def wholeSettings : Datum := .object
  [("project_home", .text "h"), ("schema_dir", .text "."), ("strict", .bool false),
   ("optimize", .bool false), ("root_namespace", .text "B")]

/-- The directory of one schema, with a configuration file. -/
def oneConfig : FileTree := oneSchema.put ["c.json"] (jsonBytes homeSettings)

theorem load_oneConfig : SettingsFile.load oneConfig "c.json" = .ok { optimize := true, home := "h" } := by
  have json : "c.json".endsWith ".json" = true := endsWith_iff.2 ⟨['c'], rfl⟩
  have plain : plainLines (Json.render homeSettings).toList = (Json.render homeSettings).toList := by
    decide +kernel
  have reads : Json.read (plainLines (Json.render homeSettings).toList) =
      .ok (.map [(.text "project_home", .text "h"), (.text "optimize", .bool true)]) := by
    rw [plain]
    exact Json.read_render ⟨by decide, trivial, trivial, trivial⟩
  rw [load_entries json (decode_jsonBytes homeSettings) reads rfl]
  rfl

theorem schemas_oneConfig : (SchemaSet.load oneConfig ".").outcome = .ok [oneDescriptor] := by
  have fileable : oneSchema.Fileable "c.json" :=
    ⟨by decide, by decide, by decide, by decide, by decide⟩
  have json : "c.json".endsWith ".json" = true := endsWith_iff.2 ⟨['c'], rfl⟩
  have writable : oneSchema.writable "c.json" = .ok ["c.json"] := rfl
  obtain ⟨_, _, _, grown⟩ :=
    exists_grown proper_oneSchema fileable rfl json writable (jsonBytes homeSettings)
  rw [oneConfig, SchemaSet.load_grown grown]
  exact load_oneSchema

/-- The last root counts, and a switch can be taken back. -/
def someFlags : List Flag := [.root "A", .config "c.json", .optimize false, .root "B"]

theorem config_someFlags : (someFlags.filterMap Flag.config?).getLast? = some "c.json" := rfl

theorem plan_oneConfig : (run oneConfig
    ["plan", "--root=A", "--config=c.json", ".", "--no-optimize", "--root=B"]).exit = .ok 0 := by
  have reads : read ["plan", "--root=A", "--config=c.json", ".", "--no-optimize", "--root=B"] =
      .ok (Flag.invocation someFlags (some ".")) := rfl
  have sound : (Flag.overlaid someFlags (some ".") { optimize := true, home := "h" }).Sound :=
    ⟨by decide, by decide, by decide⟩
  have settings := (settingsOf_flags_iff config_someFlags (by decide) load_oneConfig).2 ⟨sound, rfl⟩
  have built := (Planner.outcome_build_eq_ok_iff [oneDescriptor] "B" false false "h" _).2
    ⟨by decide, by decide +kernel, rfl⟩
  have planner := plannerOf_eq_ok_iff.2 ⟨_, _, _, settings, rfl, schemas_oneConfig, built⟩
  have planned := (Planner.planAll_ofSchemas_lenient [oneDescriptor] "B" false "h").1
  have performed := (perform_plan_eq_ok_iff (t := oneConfig) rfl).2
    ⟨_, _, planner, manifestOf_eq_ok planned, deliver_printed rfl _ _⟩
  exact (exit_eq_zero_iff reads).2 ⟨⟨_, rfl⟩, _, performed⟩

theorem config_under_flags : (run oneConfig
      ["plan", "--root=A", "--config=c.json", ".", "--no-optimize", "--root=B"]).exit = .ok 0 ∧
    (run oneConfig ["plan", "--root=A", "--config=c.json", ".", "--no-optimize", "--root=B"]).Alike
      (run (oneConfig.put ["f.json"] (jsonBytes wholeSettings)) ["plan", "--config=f.json"]) := by
  have proper : oneConfig.root.Proper := by
    refine .directory (by decide) (by decide) (List.forall_mem_cons.2 ⟨.file _, ?_⟩)
    exact List.forall_mem_singleton.2 (.file _)
  have fileable : oneConfig.Fileable "f.json" :=
    ⟨by decide, by decide, by decide, by decide, by decide⟩
  have json : "f.json".endsWith ".json" = true := endsWith_iff.2 ⟨['f'], rfl⟩
  have plain : plainLines (Json.render wholeSettings).toList = (Json.render wholeSettings).toList := by
    decide +kernel
  have reads : Json.read (plainLines (Json.render wholeSettings).toList) =
      .ok (.map (Flag.overlaid someFlags (some ".")
        { optimize := true, home := "h" }).entries.reverse) := by
    rw [plain]
    exact Json.read_render ⟨by decide, trivial, trivial, trivial, trivial, trivial, trivial⟩
  obtain ⟨alike, _⟩ := flags_over_config proper config_someFlags (by decide) load_oneConfig fileable
    rfl json rfl (decode_jsonBytes wholeSettings) reads (List.reverse_perm _) (.inl rfl)
  exact ⟨plan_oneConfig, alike (by decide) [.root "A", .config "c.json"] _ rfl⟩

end NamespacePlan.CommandLine
