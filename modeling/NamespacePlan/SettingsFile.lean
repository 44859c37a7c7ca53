import NamespacePlan.FileTree
import NamespacePlan.Json.Reader
import NamespacePlan.Settings
import NamespacePlan.Yaml.Reader

/-!
Settings from a file. The name of the file tells which of two formats it is in. What reads YAML may be
exchanged, and how deep JSON may nest is up to what runs the program.
-/

namespace NamespacePlan

inductive SettingsError where
  | notFound (path : String)
  | isDirectory (path : String)
  | undecodable (f : Text.Utf8.Fault)
  | badJson (message : String)
  | tooLongNumber (digits : Nat)
  | tooDeepJson (object : Bool)
  | badYaml
  | stray (s : Yaml.Stray)
  | noMapping (path : String)
  | invalid (faults : List FieldFault)
  deriving DecidableEq, Repr

/-- The wording of an error. Where the details are many lines, or the words of another party, they are
left out. -/
def SettingsError.message : SettingsError → String
  | notFound path => "Configuration file not found: " ++ path
  | isDirectory path =>
    "Cannot read configuration file " ++ path ++ ": " ++
      FileFault.isDirectory.message (Text.quoted path)
  | undecodable f => f.message
  | badJson message => "Invalid JSON in configuration file: " ++ message
  | tooLongNumber digits => (Json.Fault.tooLong digits).message
  | tooDeepJson object => (Json.Fault.tooDeep object).message
  | badYaml => "Invalid YAML in configuration file"
  | stray s => s.message
  | noMapping path => "Configuration file " ++ path ++ " must hold a mapping"
  | invalid _ => "Invalid configuration"

namespace SettingsFile

def isYaml (path : String) : Bool := path.endsWith ".yaml" || path.endsWith ".yml"

structure Readers where
  /-- How deep the brackets of JSON may nest; any depth if there is no number. -/
  nesting : Option Nat := none
  /-- The value of the bytes of a YAML file. -/
  yaml : List UInt8 → Except Yaml.ReadFault Value := Yaml.readBytes none

/-- What a fault of a JSON text amounts to. A fault of the notation is one of the configuration. -/
def jsonError (cs : List Char) (e : Json.Error) : SettingsError :=
  match e.fault with
  | .tooLong digits => .tooLongNumber digits
  | .tooDeep object => .tooDeepJson object
  | _ => .badJson (e.message cs)

def yamlError : Yaml.ReadFault → SettingsError
  | .undecodable f => .undecodable f
  | .text .malformed => .badYaml
  | .text (.stray s) => .stray s

def readJson (nesting : Option Nat) (bytes : List UInt8) : Except SettingsError Value :=
  match Text.Utf8.decode bytes with
  | .error f => .error (.undecodable f)
  | .ok cs =>
    let cs := Text.plainLines cs
    (Json.readWithin nesting cs).mapError (jsonError cs)

/-- The value of the bytes of a file in the format that its name tells. -/
def read (r : Readers) (path : String) (bytes : List UInt8) : Except SettingsError Value :=
  if isYaml path then (r.yaml bytes).mapError yamlError else readJson r.nesting bytes

/-- The settings of a value; no value at all leaves every setting at its default. -/
def ofValue (path : String) : Value → Except SettingsError Settings
  | .null => .ok {}
  | .map es => (Settings.ofEntries es).mapError .invalid
  | _ => .error (.noMapping path)

def loadWith (r : Readers) (t : FileTree) (path : String) : Except SettingsError Settings :=
  match t.find? path with
  | none => .error (.notFound path)
  | some (.directory _) => .error (.isDirectory path)
  | some (.file bytes) => read r path bytes >>= ofValue path

def load (t : FileTree) (path : String) : Except SettingsError Settings := loadWith {} t path

end SettingsFile

end NamespacePlan
