import NamespacePlan.Data.Value

/-!
Data to be written: what both output formats can say. Reading it back gives `toValue`.
-/

namespace NamespacePlan

/-- A value to be written; the fields of an object keep their order. -/
inductive Datum where
  | null
  | bool (b : Bool)
  | text (s : String)
  | list (ds : List Datum)
  | object (fields : List (String × Datum))
  deriving Repr

namespace Datum

mutual

def toValue : Datum → Value
  | null => .null
  | bool b => .bool b
  | text s => .text s
  | list ds => .list (toValues ds)
  | object fs => .map (toEntries fs)

def toValues : List Datum → List Value
  | [] => []
  | d :: ds => toValue d :: toValues ds

def toEntries : List (String × Datum) → List (Value × Value)
  | [] => []
  | (k, d) :: fs => (.text k, toValue d) :: toEntries fs

end

def texts (ss : List String) : Datum := .list (ss.map .text)

def textFields (fs : List (String × String)) : Datum := .object (fs.map fun f => (f.1, .text f.2))

end Datum

end NamespacePlan
