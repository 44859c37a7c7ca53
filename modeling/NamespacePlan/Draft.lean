import NamespacePlan.Descriptor
import NamespacePlan.FieldFault
import NamespacePlan.Planner

/-!
Descriptors and units whose fields nobody has checked yet. A draft becomes the record it is meant to be
when all its fields have the right kind.
-/

namespace NamespacePlan

open FieldFault

/-- A descriptor with unchecked fields. -/
structure DescriptorDraft where
  target : Value
  bindings : List (Value × Value) := []
  maindoc : Value := .bool false
  location : Value := .null

structure UnitDraft where
  namespaceName : Value
  header : Value
  imports : Value := .list []
  documentation : Value := .text ""
  xmlNamespace : Value := .null

namespace Draft

def optionalText : Value → Except FieldProblem (Option String)
  | .null => .ok none
  | v => v.asText.map some

def textEntry (field : String) (e : Value × Value) : Except (List FieldFault) (String × String) :=
  let place := [.name field, e.1.keyStep]
  both (locate (place ++ [.name "[key]"]) e.1.asText) (locate place e.2.asText)

/-- All results, or all faults. -/
def all {α : Type} (rs : List (Except (List FieldFault) α)) : Except (List FieldFault) (List α) :=
  rs.foldr (fun r acc => (both r acc).map fun p => p.1 :: p.2) (.ok [])

def textList (field : String) : Value → Except (List FieldFault) (List String)
  | .list vs => all (vs.mapIdx fun i v => locate [.name field, .index i] v.asText)
  | _ => .error [⟨[.name field], .notList⟩]

def kindName : Value → String
  | .null => "NoneType"
  | .bool _ => "bool"
  | .int _ => "int"
  | .float _ => "float"
  | .text _ | .brokenText => "str"
  | .bytes _ => "bytes"
  | .timestamp t => if t.time.isSome then "datetime" else "date"
  | .list _ => "list"
  | .map _ => "dict"
  | .set _ => "set"

def unsupported (v : Value) : String := "Unsupported type for conversion: " ++ kindName v

end Draft

namespace DescriptorDraft

open Draft

/-- The descriptor of a draft, or everything that is wrong with it. -/
def check (d : DescriptorDraft) : Except (List FieldFault) Descriptor :=
  let target := locate [.name "target_namespace"] d.target.asText
  let bindings := all ((Value.mapOf d.bindings).map (textEntry "namespaces"))
  let maindoc := locate [.name "is_maindoc"] d.maindoc.asTruth
  let location := locate [.name "location"] (optionalText d.location)
  match both (both target bindings) (both maindoc location) with
  | .ok ((t, bs), m, l) => .ok ⟨t, OrderedMap.ofList bs, some m, l⟩
  | .error fs => .error (sorted fs)

end DescriptorDraft

namespace UnitDraft

open Draft

def check (u : UnitDraft) : Except (List FieldFault) PlannedUnit :=
  let namespaceName := locate [.name "namespace"] u.namespaceName.asText
  let header := locate [.name "header"] u.header.asText
  let imports := textList "imports" u.imports
  let documentation := locate [.name "documentation"] u.documentation.asText
  let xmlNamespace := locate [.name "xml_namespace"] (optionalText u.xmlNamespace)
  match both (both namespaceName header) (both imports (both documentation xmlNamespace)) with
  | .ok ((n, h), i, d, x) =>
    .ok { namespaceName := n, header := h, imports := i, documentation := d, xmlNamespace := x }
  | .error fs => .error (sorted fs)

end UnitDraft

end NamespacePlan
