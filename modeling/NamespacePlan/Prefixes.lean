import NamespacePlan.Descriptor

/-!
The prefixes that a set of schemas gives to its namespaces. Each URI has one prefix across the whole
set; the prefixes of the schema language itself and of the abstract layer do not count.
-/

namespace NamespacePlan

/-- One URI bound under several prefixes. -/
structure Conflict where
  uri : String
  prefixes : List String
  deriving DecidableEq, Repr

namespace Conflict

def ofPrefixes (uri : String) (prefixes : List String) : Conflict :=
  ⟨uri, prefixes.mergeSort⟩

def message (c : Conflict) : String :=
  "XML namespace '" ++ c.uri ++ "' is bound to more than one prefix: " ++
    String.intercalate ", " c.prefixes

end Conflict

namespace Prefixes

/-- Prefixes that never become a namespace of their own. -/
def blocked : List String := ["", "xsd", "abs", "cct"]

/-- What has been gathered: the bindings, once each, and for every URI its prefixes. -/
structure Gathered where
  pairs : List (String × String) := []
  prefixes : OrderedMap String (List String) := .empty

/-- Takes a binding in, unless its prefix does not count or it was taken in before. -/
def Gathered.add (g : Gathered) (b : String × String) : Gathered :=
  if blocked.contains b.1 || g.pairs.contains b then g
  else
    let known := (g.prefixes.get? b.2).getD []
    { pairs := g.pairs ++ [b]
      prefixes := g.prefixes.insert b.2 (if known.contains b.1 then known else known ++ [b.1]) }

/-- Every binding that counts, once, in the order of first declaration. -/
def collect (ds : List Descriptor) : Except Conflict (List (String × String)) :=
  let g := ds.foldl (fun g d => d.bindings.entries.foldl Gathered.add g) {}
  match g.prefixes.entries.find? fun e => 1 < e.2.length with
  | some (uri, prefixes) => .error (Conflict.ofPrefixes uri prefixes)
  | none => .ok g.pairs

end Prefixes

end NamespacePlan
