import NamespacePlan.Proofs.JsonFaults
import NamespacePlan.Proofs.SettingsChecks
import NamespacePlan.Proofs.Utf8Texts
import NamespacePlan.Proofs.YamlFaults
import NamespacePlan.SettingsFile

/-! How loading settings ends: with settings, with a configuration error, or with a failure of another
kind. Of a JSON file the last is told by its bytes; of a YAML file it is what the reader fails over
besides the notation. -/
namespace NamespacePlan

open Text

/-- The error is reported as one of the configuration. -/
def SettingsError.IsConfiguration : SettingsError → Prop
  | undecodable _ | tooLongNumber _ | tooDeepJson _ | stray _ => False
  | _ => True

namespace SettingsFile

/-- A failure that is no configuration error, and what in the file of that name has led to it. -/
inductive Escape (r : Readers) (path : String) (bytes : List UInt8) : SettingsError → Prop
  | undecodable {f : Utf8.Fault} (json : isYaml path = false)
      (untextual : ∀ s : String, s.toUTF8.toList ≠ bytes) : Escape r path bytes (.undecodable f)
  | longNumber {text : String} {n : Nat} (json : isYaml path = false)
      (encoded : text.toUTF8.toList = bytes) (run : Json.HasRun (plainLines text.toList) n) :
      Escape r path bytes (.tooLongNumber n)
  | deepNesting {text : String} {object : Bool} (json : isYaml path = false)
      (encoded : text.toUTF8.toList = bytes)
      (deep : Json.IsDeep r.nesting (plainLines text.toList)) :
      Escape r path bytes (.tooDeepJson object)
  | yaml {f : Yaml.ReadFault} {e : SettingsError} (yaml : isYaml path = true)
      (failed : r.yaml bytes = .error f) (other : f ≠ .text .malformed) (same : yamlError f = e) :
      Escape r path bytes e

theorem isConfiguration_ofValue {path : String} {v : Value} {e : SettingsError}
    (failed : ofValue path v = .error e) : e.IsConfiguration := by
  unfold ofValue at failed
  split at failed
  · cases failed
  · next es =>
    cases read : Settings.ofEntries es with
    | ok c =>
      rw [read] at failed
      cases failed
    | error fs =>
      rw [read] at failed
      cases failed
      trivial
  · cases failed
    trivial

theorem isConfiguration_yamlError {f : Yaml.ReadFault} :
    (yamlError f).IsConfiguration ↔ f = .text .malformed := by
  cases f with
  | undecodable f => simp [yamlError, SettingsError.IsConfiguration]
  | text f => cases f <;> simp [yamlError, SettingsError.IsConfiguration]

theorem read_of_yaml {r : Readers} {path : String} (yaml : isYaml path = true) (bytes : List UInt8) :
    read r path bytes = (r.yaml bytes).mapError yamlError := if_pos yaml

theorem read_of_json {r : Readers} {path : String} (json : isYaml path = false)
    (bytes : List UInt8) : read r path bytes = readJson r.nesting bytes := by
  rw [read, json, if_neg Bool.false_ne_true]

section Json

variable {nesting : Option Nat} {bytes : List UInt8}

theorem readJson_of_text {cs : List Char} (decoded : Utf8.decode bytes = .ok cs) :
    readJson nesting bytes =
      (Json.readWithin nesting (plainLines cs)).mapError (jsonError (plainLines cs)) := by
  rw [readJson, decoded]

theorem readJson_of_fault {f : Utf8.Fault} (undecoded : Utf8.decode bytes = .error f) :
    readJson nesting bytes = .error (.undecodable f) := by
  rw [readJson, undecoded]

/-- JSON bytes that are a text fail as a configuration does, or over a number or the nesting in it. -/
theorem readJson_error {cs : List Char} (decoded : Utf8.decode bytes = .ok cs) {e : SettingsError}
    (failed : readJson nesting bytes = .error e) :
    e.IsConfiguration ∨ (∃ n, e = .tooLongNumber n ∧ Json.HasRun (plainLines cs) n) ∨
      ∃ object, e = .tooDeepJson object ∧ Json.IsDeep nesting (plainLines cs) := by
  rw [readJson_of_text decoded] at failed
  obtain ⟨e', stopped, rfl⟩ := mapError_eq_error_iff.1 failed
  have accounts := Json.accounts_of_readWithin stopped
  obtain ⟨fault, left⟩ := e'
  cases fault with
  | tooLong n => exact .inr (.inl ⟨n, rfl, accounts⟩)
  | tooDeep object => exact .inr (.inr ⟨object, rfl, accounts⟩)
  | _ => exact .inl trivial

end Json

section Load

variable {r : Readers} {t : FileTree} {path : String} {bytes : List UInt8}

theorem loadWith_of_file (file : t.find? path = some (.file bytes)) :
    loadWith r t path = read r path bytes >>= ofValue path := by
  rw [loadWith, file]

/-- A file fails to load where it is not read, or as a configuration does. -/
theorem loadWith_error (file : t.find? path = some (.file bytes)) {e : SettingsError}
    (failed : loadWith r t path = .error e) : read r path bytes = .error e ∨ e.IsConfiguration := by
  rw [loadWith_of_file file] at failed
  cases result : read r path bytes with
  | ok v =>
    rw [result] at failed
    exact .inr (isConfiguration_ofValue failed)
  | error e' =>
    rw [result] at failed
    cases failed
    exact .inl rfl

theorem loadWith_of_error (file : t.find? path = some (.file bytes)) {e : SettingsError}
    (failed : read r path bytes = .error e) : loadWith r t path = .error e := by
  rw [loadWith_of_file file, failed]
  rfl

/-- Another failure than one of the configuration is that of reading a file. -/
theorem read_of_loadWith {e : SettingsError} (failed : loadWith r t path = .error e)
    (other : ¬e.IsConfiguration) :
    ∃ bytes, t.find? path = some (.file bytes) ∧ read r path bytes = .error e := by
  cases found : t.find? path with
  | none =>
    rw [loadWith, found] at failed
    cases failed
    exact absurd trivial other
  | some n =>
    cases n with
    | directory entries =>
      rw [loadWith, found] at failed
      cases failed
      exact absurd trivial other
    | file bytes =>
      exact ⟨bytes, rfl, (loadWith_error found failed).resolve_right other⟩

/-- What is not read for another reason than the configuration has such a reason in its bytes. -/
theorem escape_of_read {e : SettingsError} (failed : read r path bytes = .error e)
    (other : ¬e.IsConfiguration) : Escape r path bytes e := by
  cases format : isYaml path with
  | true =>
    rw [read_of_yaml format] at failed
    obtain ⟨f, stopped, rfl⟩ := mapError_eq_error_iff.1 failed
    exact .yaml format stopped (fun same => other (isConfiguration_yamlError.2 same)) rfl
  | false =>
    rw [read_of_json format] at failed
    cases decoded : Utf8.decode bytes with
    | error f =>
      rw [readJson_of_fault decoded] at failed
      cases failed
      exact .undecodable format (Utf8.decode_fails_iff.1 ⟨f, decoded⟩)
    | ok cs =>
      have encoded := (Utf8.decode_eq_ok_iff.1 decoded).symm
      have letters : (String.ofList cs).toList = cs := String.toList_ofList
      rcases readJson_error decoded failed with configuration | ⟨n, rfl, run⟩ | ⟨object, rfl, deep⟩
      · exact absurd configuration other
      · exact .longNumber format encoded (letters.symm ▸ run)
      · exact .deepNesting format encoded (letters.symm ▸ deep)

/-- JSON bytes are undecodable where they are those of no text. -/
theorem undecodable_iff (json : isYaml path = false) (file : t.find? path = some (.file bytes)) :
    (∃ f, loadWith r t path = .error (.undecodable f)) ↔
      ∀ s : String, s.toUTF8.toList ≠ bytes := by
  rw [← Utf8.decode_fails_iff]
  constructor
  · rintro ⟨f, failed⟩
    rcases loadWith_error file failed with unread | configuration
    · cases escape_of_read unread id with
      | undecodable _ untextual => exact Utf8.decode_fails_iff.2 untextual
      | yaml yaml => cases json.symm.trans yaml
    · exact configuration.elim
  · rintro ⟨f, undecoded⟩
    exact ⟨f, loadWith_of_error file ((read_of_json json bytes).trans (readJson_of_fault undecoded))⟩

/-- A YAML file escapes as its reader fails. -/
theorem yaml_escape_iff (yaml : isYaml path = true) (file : t.find? path = some (.file bytes))
    {e : SettingsError} (other : ¬e.IsConfiguration) :
    loadWith r t path = .error e ↔ ∃ f, r.yaml bytes = .error f ∧ yamlError f = e := by
  constructor
  · intro failed
    rcases loadWith_error file failed with unread | configuration
    · rw [read_of_yaml yaml] at unread
      exact mapError_eq_error_iff.1 unread
    · exact absurd configuration other
  · intro stops
    refine loadWith_of_error file ?_
    rw [read_of_yaml yaml]
    exact mapError_eq_error_iff.2 stops

end Load

/-- Settings, a configuration error or another failure, whatever is at the path, whatever reads YAML
and however deep JSON may nest. JSON bytes that are no text are such a failure, and so is exactly what
the reader of YAML fails over besides the notation. -/
theorem load_settles (r : Readers) (t : FileTree) (path : String) :
    ((∃ c, loadWith r t path = .ok c) ∨ (∃ e, loadWith r t path = .error e ∧ e.IsConfiguration) ∨
      ∃ bytes e, t.find? path = some (.file bytes) ∧ loadWith r t path = .error e ∧
        ¬e.IsConfiguration ∧ Escape r path bytes e) ∧
    ∀ bytes, t.find? path = some (.file bytes) →
      (isYaml path = false → ((∃ f, loadWith r t path = .error (.undecodable f)) ↔
        ∀ s : String, s.toUTF8.toList ≠ bytes)) ∧
      (isYaml path = true → ∀ e : SettingsError, ¬e.IsConfiguration →
        (loadWith r t path = .error e ↔ ∃ f, r.yaml bytes = .error f ∧ yamlError f = e)) := by
  refine ⟨?_, fun bytes file =>
    ⟨fun json => undecodable_iff json file, fun yaml e other => yaml_escape_iff yaml file other⟩⟩
  cases loaded : loadWith r t path with
  | ok c => exact .inl ⟨c, rfl⟩
  | error e =>
    by_cases configuration : e.IsConfiguration
    · exact .inr (.inl ⟨e, rfl, configuration⟩)
    · obtain ⟨bytes, file, unread⟩ := read_of_loadWith loaded configuration
      exact .inr (.inr ⟨bytes, e, file, rfl, configuration, escape_of_read unread configuration⟩)

def latinFile : FileTree where
  root := .directory [("c.json", .file [0xff])]
  place := []

/-- A byte that begins no character leaves as a failure of the decoding. -/
theorem undecodable_escapes : latinFile.find? "c.json" = some (.file [0xff]) ∧
    load latinFile "c.json" = .error (.undecodable ⟨0, 0xff, 1, .badStart⟩) ∧
    ¬((∃ c, load latinFile "c.json" = .ok c) ∨
      ∃ e, load latinFile "c.json" = .error e ∧ e.IsConfiguration) := by
  have found : latinFile.find? "c.json" = some (.file [0xff]) := rfl
  have failed : load latinFile "c.json" = .error (.undecodable ⟨0, 0xff, 1, .badStart⟩) := by
    refine loadWith_of_error found ?_
    rw [read_of_json (by decide +kernel)]
    exact readJson_of_fault rfl
  refine ⟨found, failed, ?_⟩
  rintro (⟨c, loaded⟩ | ⟨e, loaded, configuration⟩)
  · cases failed.symm.trans loaded
  · cases failed.symm.trans loaded
    exact configuration

/-- The reader of this library strays only over a text, and over what stands in it. -/
theorem strays_of_loadWith {r : Readers} {t : FileTree} {path : String} {nesting : Option Nat}
    {s : Yaml.Stray} (own : r.yaml = Yaml.readBytes nesting)
    (failed : loadWith r t path = .error (.stray s)) :
    isYaml path = true ∧ ∃ text : String, t.find? path = some (.file text.toUTF8.toList) ∧
      Yaml.StraysIn nesting (plainLines text.toList) s := by
  obtain ⟨bytes, file, unread⟩ := read_of_loadWith failed id
  cases escape_of_read unread id with
  | @yaml f _ yaml stopped _ same =>
    refine ⟨yaml, ?_⟩
    rw [own, Yaml.readBytes] at stopped
    cases decoded : Utf8.decode bytes with
    | error g =>
      rw [decoded] at stopped
      cases stopped
      cases same
    | ok cs =>
      rw [decoded] at stopped
      obtain ⟨g, strayed, rfl⟩ := mapError_eq_error_iff.1 stopped
      cases g with
      | malformed => cases same
      | stray s' =>
        cases same
        refine ⟨String.ofList cs, Utf8.decode_eq_ok_iff.1 decoded ▸ file, ?_⟩
        rw [String.toList_ofList]
        exact Yaml.straysIn_of_read strayed

end SettingsFile

end NamespacePlan
