import NamespacePlan.FileTree
import NamespacePlan.NamespaceTable
import NamespacePlan.Xml.RootTag

/-!
Descriptors of schema files. The root tag of a file tells its namespaces; whether it is a main document
follows from its namespace or from where it lies.
-/

namespace NamespacePlan

inductive SchemaError where
  | fileNotFound (path : String)
  | directoryNotFound (path : String)
  | invalidXml (path : String)
  | noTarget (path : String)
  deriving DecidableEq, Repr

namespace SchemaError

/-- The wording of an error; what is wrong with the XML is left to its reader. -/
def message : SchemaError → String
  | fileNotFound path => "Schema file not found: " ++ path
  | directoryNotFound path => "Schema directory not found: " ++ path
  | invalidXml path => "Invalid XML in schema file " ++ path
  | noTarget path => "Schema " ++ path ++ " declares no targetNamespace"

def path : SchemaError → String
  | fileNotFound path | directoryNotFound path | invalidXml path | noTarget path => path

end SchemaError

namespace SchemaFile

def maindocDirectory : String := "maindoc"

/-- The names of the directories around a file that count: all those below a base, or only the one it
lies in. -/
def folders (t : FileTree) (path : String) (base : Option String) : List String :=
  match base with
  | none => [Path.parentName (t.absolute path)]
  | some b => (Path.stepsBetween (t.absolute b) (t.absolute path)).dropLast

/-- The file is a main document: the base document is one, and so is what lies in their directory. -/
def isMaindoc (t : FileTree) (path target : String) (base : Option String) : Bool :=
  target == baseDocument || (folders t path base).contains maindocDirectory

def describe (t : FileTree) (path : String) (maindoc : Option Bool) (base : Option String)
    (tag : Xml.RootTag) : Except SchemaError Descriptor :=
  match tag.value? "targetNamespace" with
  | none => .error (.noTarget path)
  | some target =>
    if target = "" then .error (.noTarget path)
    else
      .ok
        { target := target
          bindings := OrderedMap.ofList tag.bindings
          maindoc := some (maindoc.getD (isMaindoc t path target base))
          location := some (t.absolute path) }

def load (t : FileTree) (path : String) (maindoc : Option Bool) (base : Option String) :
    Except SchemaError Descriptor :=
  match t.fileBytes? path with
  | none => .error (.fileNotFound path)
  | some bytes =>
    match Xml.RootTag.ofBytes bytes with
    | none => .error (.invalidXml path)
    | some tag => describe t path maindoc base tag

end SchemaFile

end NamespacePlan
