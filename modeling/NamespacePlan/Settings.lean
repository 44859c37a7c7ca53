import NamespacePlan.Banner
import NamespacePlan.FieldFault
import NamespacePlan.Identifier
import NamespacePlan.Path

/-!
The settings of a run. They are read from the entries of a configuration; unknown entries and wrong
values are faults, and a setting without an entry has its default.
-/

namespace NamespacePlan

structure Settings where
  root : String := "Ubl"
  optimize : Bool := false
  strict : Bool := false
  schemaDir : Option String := none
  home : String := defaultHome
  deriving DecidableEq, Repr

inductive Setting where
  | root (s : String)
  | optimize (b : Bool)
  | strict (b : Bool)
  | schemaDir (path : Option String)
  | home (s : String)
  deriving DecidableEq, Repr

namespace Setting

def filledText (v : Value) : Except FieldProblem String :=
  match v.asText with
  | .error p => .error p
  | .ok s => if s = "" then .error .emptyText else .ok s

def dottedName (v : Value) : Except FieldProblem String :=
  match filledText v with
  | .error p => .error p
  | .ok s => if Identifier.isDotted s then .ok s else .error (.notDotted s)

def optionalPath : Value → Except FieldProblem (Option String)
  | .null => .ok none
  | .text s => .ok (some (Path.tidy s))
  | _ => .error .notPath

def read (name : String) (v : Value) : Except FieldProblem Setting :=
  match name with
  | "root_namespace" => (dottedName v).map root
  | "optimize" => v.asTruth.map optimize
  | "strict" => v.asTruth.map strict
  | "schema_dir" => (optionalPath v).map schemaDir
  | "project_home" => (filledText v).map home
  | _ => .error .unknownField

def ofEntry (e : Value × Value) : Except FieldFault Setting :=
  match e.1 with
  | .text name => (read name e.2).mapError (⟨[.name name], ·⟩)
  | k => .error ⟨[k.keyStep], .badKey⟩

end Setting

namespace Settings

def put (s : Settings) : Setting → Settings
  | .root r => { s with root := r }
  | .optimize b => { s with optimize := b }
  | .strict b => { s with strict := b }
  | .schemaDir p => { s with schemaDir := p }
  | .home h => { s with home := h }

def ofEntries (es : List (Value × Value)) : Except (List FieldFault) Settings :=
  match FieldFault.gather (es.map Setting.ofEntry) with
  | .ok given => .ok (given.foldl put {})
  | .error fs => .error (FieldFault.sorted fs)

def entries (s : Settings) : List (Value × Value) :=
  [(.text "root_namespace", .text s.root), (.text "optimize", .bool s.optimize),
   (.text "strict", .bool s.strict),
   (.text "schema_dir", (s.schemaDir.map Value.text).getD .null),
   (.text "project_home", .text s.home)]

/-- Settings with some of them replaced; an entry without a value replaces none. -/
def merged (s : Settings) (es : List (Value × Value)) : Except (List FieldFault) Settings :=
  let given := es.filter fun e => match e.2 with
    | .null => false
    | _ => true
  ofEntries (Value.mapOf (s.entries ++ given))

end Settings

end NamespacePlan
