import NamespacePlan.Json.Writer
import NamespacePlan.Planner
import NamespacePlan.Yaml.Writer

/-!
The manifest of a run: its settings, the namespace table sorted by key, one entry per unit and the
distinct output namespaces in order.
-/

namespace NamespacePlan

/-- What a run decided. -/
structure Manifest where
  root : String
  optimize : Bool
  namespaces : List (String × String)
  units : List PlannedUnit
  outputs : List String
  deriving DecidableEq, Repr

def PlannedUnit.toDatum (u : PlannedUnit) : Datum :=
  .object
    [("namespace", .text u.namespaceName),
     ("header", .text u.header),
     ("imports", Datum.texts u.imports),
     ("documentation", .text u.documentation),
     ("xml_namespace", match u.xmlNamespace with
       | some uri => .text uri
       | none => .null)]

namespace Manifest

/-- The entries of a table by key. -/
def sortedEntries (t : OrderedMap String String) : List (String × String) :=
  t.entries.mergeSort Descriptor.bindingLe

def of (units : List PlannedUnit) (table : OrderedMap String String) (root : String)
    (optimize : Bool) : Manifest :=
  { root := root
    optimize := optimize
    namespaces := sortedEntries table
    units := units
    outputs := (units.map PlannedUnit.namespaceName).eraseDups.mergeSort }

def fields (m : Manifest) : List (String × Datum) :=
  [("root_namespace", .text m.root),
   ("optimize", .bool m.optimize),
   ("namespaces", Datum.textFields m.namespaces),
   ("units", .list (m.units.map PlannedUnit.toDatum)),
   ("output_namespaces", Datum.texts m.outputs)]

def toDatum (m : Manifest) : Datum := .object m.fields

inductive Format where
  | json
  | yaml
  deriving DecidableEq, Repr

def text (m : Manifest) : Format → String
  | .json => Json.render m.toDatum
  | .yaml => Yaml.render m.fields

end Manifest

end NamespacePlan
