import NamespacePlan.SchemaSet
import NamespacePlan.SettingsFile

/-!
Work on files and on what is shown to a user. Each step may fail, and what has been changed, printed
or reported before a failure stays so.
-/

namespace NamespacePlan.CommandLine

inductive TaskError where
  | settings (e : SettingsError)
  | noDirectory
  | schema (e : SchemaError)
  | plan (e : PlanError)
  | unwritable (path : String) (f : FileFault)
  | nullInPath
  | noRoom
  | unprintable (c : Char)
  deriving DecidableEq, Repr

namespace TaskError

def message : TaskError → String
  | settings e => e.message
  | noDirectory => "No schema directory given (argument or 'schema_dir' in config)."
  | schema e => e.message
  | plan e => e.message
  | unwritable path f => f.message (Text.quoted path)
  | nullInPath => "embedded null byte"
  | noRoom => "[Errno 28] No space left on device"
  | unprintable c => "can't encode character " ++ Text.quoted (String.singleton c)

def details? : TaskError → Option String
  | settings (.invalid fs) => some (String.intercalate "; " (fs.map FieldFault.line))
  | settings .badYaml => some "not well formed"
  | schema (.invalidXml _) => some "not well formed"
  | _ => none

end TaskError

/-- What a run writes and prints to. -/
structure Device where
  /-- How many bytes a file can hold; there is no end to them, if no number is given. -/
  room : Option Nat := none
  prints : Char → Bool := fun _ => true

/-- What a run has changed, printed and reported so far. -/
structure World where
  tree : FileTree
  stdout : String := ""
  events : List Event := []
  deriving Repr

def World.reported (w : World) (es : List Event) : World := { w with events := w.events ++ es }

abbrev Work := EStateM TaskError World

namespace Work

variable {α : Type}

def ofReported (x : Reported TaskError α) : Work α := fun w =>
  match x.outcome with
  | .ok a => .ok a (w.reported x.events)
  | .error e => .error e (w.reported x.events)

/-- Opens a file for writing, and so empties it or makes it; its place. -/
def openFile (path : String) : Work (List String) := fun w =>
  if path.toList.contains '\x00' then .error .nullInPath w
  else
    match w.tree.writable path with
    | .error f => .error (.unwritable path f) w
    | .ok place => .ok place { w with tree := w.tree.put place [] }

/-- Writes a text into an open file, as far as there is room. -/
def write (d : Device) (place : List String) (text : String) : Work Unit := fun w =>
  let bytes := text.toUTF8.toList
  match d.room with
  | none => .ok () { w with tree := w.tree.put place bytes }
  | some room =>
    let after := { w with tree := w.tree.put place (bytes.take room) }
    if bytes.length ≤ room then .ok () after else .error .noRoom after

/-- Prints a text, if each of its characters can be printed. -/
def print (d : Device) (text : String) : Work Unit := fun w =>
  match text.toList.find? fun c => !d.prints c with
  | some c => .error (.unprintable c) w
  | none => .ok () { w with stdout := w.stdout ++ text }

end Work

end NamespacePlan.CommandLine
