import NamespacePlan.Identifier
import NamespacePlan.OrderedMap

/-!
Which sub-namespaces import which. A bare graph speaks of keys below a root, the empty key being the
root itself; qualifying it puts the root in front of every name.
-/

namespace NamespacePlan

/-- The imports of each namespace, in order. -/
abbrev ImportGraph := OrderedMap String (List String)

namespace ImportGraph

def full : ImportGraph := OrderedMap.ofList
  [("", ["Cbc", "Cac", "Ext"]),
   ("Cbc", ["Udt"]),
   ("Cac", ["Udt", "Qdt", "Cbc"]),
   ("Ext", ["Udt", "Cbc"]),
   ("Qdt", ["Udt"]),
   ("Udt", ["Sbc", "Ext", "Cctscct", "Cbc"]),
   ("Sbc", ["Udt"]),
   ("Cctscct", ["Udt", "Sbc", "Ext", "Cbc"]),
   ("Abs", ["Udt", "Ext", "Cbc"]),
   ("Xades", ["DS"]),
   ("Sac", ["Udt", "Sbc", "DS"]),
   ("Csc", ["Sac"])]

/-- The graph without common basic components: unqualified data types stand in for them. -/
def optimized : ImportGraph := OrderedMap.ofList
  [("", ["Cac", "Udt"]),
   ("Cac", ["Udt"]),
   ("Ext", ["Udt"]),
   ("Udt", ["Sbc", "Ext", "Cctscct"]),
   ("Sbc", ["Udt"]),
   ("Cctscct", ["Udt", "Sbc", "Ext"]),
   ("Abs", ["Udt", "Ext"]),
   ("Xades", ["DS"]),
   ("Sac", ["Udt", "Sbc", "DS"]),
   ("Csc", ["Sac"])]

def select (optimize : Bool) : ImportGraph := if optimize then optimized else full

/-- The graph below a root. -/
def qualified (root : String) (g : ImportGraph) : ImportGraph :=
  OrderedMap.ofList (g.entries.map fun e =>
    (Identifier.qualify root e.1, e.2.map (Identifier.qualify root)))

/-- The given bare graph below a root, or else the one of the mode. -/
def build (optimize : Bool) (root : String) (bare : Option ImportGraph := none) : ImportGraph :=
  qualified root (bare.getD (select optimize))

end ImportGraph

end NamespacePlan
