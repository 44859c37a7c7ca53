import NamespacePlan.Banner
import NamespacePlan.ImportGraph
import NamespacePlan.NamespaceTable

/-!
The imports and the documentation of a unit. The base document shares its output namespace with the
main documents but takes its imports from the abstract sub-namespace.
-/

namespace NamespacePlan

/-- Answers what a namespace imports, in one mode and under one root. -/
structure ImportResolver where
  optimize : Bool
  root : String
  /-- The output namespace of the base document, if there is one. -/
  base : Option String
  graph : ImportGraph

namespace ImportResolver

/-- The resolver of a mode and a root, over the given bare graph or the one of the mode. -/
def build? (optimize : Bool) (root : String) (base : Option String)
    (bare : Option ImportGraph := none) : Except PlanError ImportResolver :=
  if root = "" then .error .emptyRoot
  else .ok ⟨optimize, root, base, ImportGraph.build optimize root bare⟩

/-- The query speaks of the base document. With the XML namespace at hand that decides; without it
the output namespace does. -/
def isBase (r : ImportResolver) (output : String) : Option String → Bool
  | some uri => uri == baseDocument
  | none => r.base == some output

/-- The key of the graph under which the imports stand. -/
def lookupKey (r : ImportResolver) (output : String) (uri : Option String) : String :=
  if r.isBase output uri then Identifier.qualify output "Abs" else output

/-- The imports, in order; a namespace outside the graph imports nothing. -/
def importsFor (r : ImportResolver) (output : String) (uri : Option String) : List String :=
  (r.graph.get? (r.lookupKey output uri)).getD []

def documentationFor (r : ImportResolver) (output : String) : String :=
  Banner.documentation output r.optimize

def resolve (r : ImportResolver) (output : String) (uri : Option String) :
    Reported PlanError (List String × String) := do
  let imports := r.importsFor output uri
  Reported.report (.importsResolved imports.length output)
  pure (imports, r.documentationFor output)

end ImportResolver

end NamespacePlan
