import NamespacePlan.Imports

/-!
Plans one unit per schema: where it goes, what it imports and which banner it carries. A lenient plan
never fails; a strict one fails at the first unknown namespace.
-/

namespace NamespacePlan

/-- All that is needed to open one generated unit. -/
structure PlannedUnit where
  namespaceName : String
  header : String
  imports : List String := []
  documentation : String := ""
  xmlNamespace : Option String := none
  deriving DecidableEq, Repr

/-- A namespace table and an import resolver under one root. -/
structure Planner where
  home : String
  table : NamespaceTable
  resolver : ImportResolver

namespace Planner

def build (ds : List Descriptor) (root : String) (optimize : Bool := false)
    (strict : Bool := false) (home : String := defaultHome) : Reported PlanError Planner := do
  let table ← NamespaceTable.build ds root optimize strict
  let resolver ← Reported.ofExcept
    (ImportResolver.build? optimize root (table.entries.get? baseDocument))
  pure ⟨home, table, resolver⟩

def planNamespace (p : Planner) (uri : String) : Reported PlanError PlannedUnit := do
  let output ← p.table.resolve uri
  let (imports, documentation) ← p.resolver.resolve output (some uri)
  pure
    { namespaceName := output
      header := Banner.render documentation p.home
      imports := imports
      documentation := documentation
      xmlNamespace := some uri }

def plan (p : Planner) (d : Descriptor) : Reported PlanError PlannedUnit :=
  p.planNamespace d.target

def planEach (p : Planner) : List Descriptor → Reported PlanError (List PlannedUnit)
  | [] => pure []
  | d :: ds => do
    let u ← p.plan d
    let us ← p.planEach ds
    pure (u :: us)

def planAll (p : Planner) : Reported PlanError (List PlannedUnit) := p.planEach p.table.schemas

end Planner

end NamespacePlan
