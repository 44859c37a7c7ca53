import NamespacePlan.Event
import NamespacePlan.Identifier
import NamespacePlan.Prefixes

/-!
The table from XML namespaces to output namespaces. Prefixes are read off the schemas first, fixed
rules are laid over them, and main documents that are still missing go to the root.
-/

namespace NamespacePlan

/-- The namespace of the abstract root of every main document. -/
def baseDocument : String := "urn:oasis:names:specification:ubl:schema:xsd:BaseDocument-2"

def unresolved : String := "UnresolvedNamespace"

/-- Why there is no plan. -/
inductive PlanError where
  | emptyRoot
  | conflict (c : Conflict)
  | unknownNamespace (uri : String)
  deriving DecidableEq, Repr

def PlanError.message : PlanError → String
  | emptyRoot => "root_namespace must be a non-empty string"
  | conflict c => c.message
  | unknownNamespace uri => "Don't know how to handle xml namespace " ++ uri

/-- A rule that fixes where one namespace goes. -/
structure Override where
  uri : String
  key : String
  deriving DecidableEq, Repr

def Override.apply (o : Override) (root : String) (t : OrderedMap String String) :
    OrderedMap String String :=
  t.insert o.uri (Identifier.qualify root o.key)

/-- The signature components have a name of their own, and both versions of the advanced signatures
share one. -/
def defaultOverrides : List Override :=
  [⟨"urn:oasis:names:specification:ubl:schema:xsd:CommonSignatureComponents-2", "Csc"⟩,
   ⟨"http://uri.etsi.org/01903/v1.3.2#", "Xades"⟩,
   ⟨"http://uri.etsi.org/01903/v1.4.1#", "Xades"⟩]

structure NamespaceTable where
  schemas : List Descriptor
  root : String
  optimize : Bool
  strict : Bool
  entries : OrderedMap String String

namespace NamespaceTable

def fromPrefixes (root : String) (bs : List (String × String)) : OrderedMap String String :=
  OrderedMap.ofList (bs.map fun b => (b.2, root ++ "." ++ Identifier.pascal b.1))

def applyOverrides (root : String) (os : List Override) (t : OrderedMap String String) :
    OrderedMap String String :=
  os.foldl (fun t o => o.apply root t) t

/-- The main documents that a table misses, all at the root. -/
def addMaindocs (root : String) (ds : List Descriptor) (t : OrderedMap String String) :
    OrderedMap String String :=
  ds.foldl (fun t d => if d.isMaindoc then t.insertNew d.target root else t) t

def entriesOf (ds : List Descriptor) (root : String) (os : List Override)
    (bs : List (String × String)) : OrderedMap String String :=
  addMaindocs root ds (applyOverrides root os (fromPrefixes root bs))

/-- The distinct output namespaces, in the order of their first key. -/
def outputs (t : NamespaceTable) : List String := t.entries.values.eraseDups

def build? (ds : List Descriptor) (root : String) (optimize strict : Bool)
    (os : List Override) : Except PlanError NamespaceTable :=
  if root = "" then .error .emptyRoot
  else
    match Prefixes.collect ds with
    | .error c => .error (.conflict c)
    | .ok bs => .ok ⟨ds, root, optimize, strict, entriesOf ds root os bs⟩

def built (t : NamespaceTable) : Event :=
  .tableBuilt t.entries.entries.length t.outputs.length t.root

def build (ds : List Descriptor) (root : String) (optimize : Bool := false)
    (strict : Bool := false) (os : List Override := defaultOverrides) :
    Reported PlanError NamespaceTable := do
  let t ← Reported.ofExcept (build? ds root optimize strict os)
  Reported.report t.built
  pure t

/-- Where a namespace goes. An unknown one fails a strict table; another reports it and sends it to
the placeholder. -/
def resolve (t : NamespaceTable) (uri : String) : Reported PlanError String :=
  match t.entries.get? uri with
  | some output => pure output
  | none =>
    if t.strict then Reported.fail (.unknownNamespace uri)
    else ⟨[.unknownNamespace uri], .ok unresolved⟩

end NamespaceTable

end NamespacePlan
