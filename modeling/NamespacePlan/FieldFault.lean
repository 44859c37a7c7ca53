import NamespacePlan.Data.Value
import NamespacePlan.Json.Writer
import NamespacePlan.Text.Split

/-!
Reading the fields of a record from values of any kind. All fields are read, and all that is wrong with
them is reported together in one order.
-/

namespace NamespacePlan

inductive FieldStep where
  | name (s : String)
  | index (i : Int)
  deriving DecidableEq, Repr

inductive FieldProblem where
  | notText
  | notUnicode
  | emptyText
  | notTruth
  | unclearTruth
  | notPath
  | notList
  | unknownField
  | badKey
  | notDotted (text : String)
  deriving DecidableEq, Repr

namespace FieldProblem

def code : FieldProblem → String
  | notText => "string_type"
  | notUnicode => "string_unicode"
  | emptyText => "string_too_short"
  | notTruth => "bool_type"
  | unclearTruth => "bool_parsing"
  | notPath => "path_type"
  | notList => "list_type"
  | unknownField => "extra_forbidden"
  | badKey => "invalid_key"
  | notDotted _ => "value_error"

def message : FieldProblem → String
  | notText => "Input should be a valid string"
  | notUnicode =>
    "Input should be a valid string, unable to parse raw data as a unicode string"
  | emptyText => "String should have at least 1 character"
  | notTruth => "Input should be a valid boolean"
  | unclearTruth => "Input should be a valid boolean, unable to interpret input"
  | notPath => "Input is not a valid path for <class 'pathlib.Path'>"
  | notList => "Input should be a valid list"
  | unknownField => "Extra inputs are not permitted"
  | badKey => "Keys should be strings"
  | notDotted s => "Value error, '" ++ s ++ "' is not a dotted identifier"

end FieldProblem

structure FieldFault where
  place : List FieldStep
  problem : FieldProblem
  deriving DecidableEq, Repr

namespace FieldFault

def stepText : FieldStep → List Char
  | .name s => Json.string s
  | .index i => (toString i).toList

def line (f : FieldFault) : String :=
  String.ofList ('[' :: '[' :: Text.joinWith [',', ' '] (f.place.map stepText) ++ "], ".toList ++
    Json.string f.problem.code ++ [',', ' '] ++ Json.string f.problem.message ++ [']'])

def sorted (fs : List FieldFault) : List FieldFault :=
  fs.mergeSort fun a b => a.line ≤ b.line

def gather {α : Type} : List (Except FieldFault α) → Except (List FieldFault) (List α)
  | [] => .ok []
  | r :: rs =>
    match r, gather rs with
    | .ok a, .ok as => .ok (a :: as)
    | .ok _, .error fs => .error fs
    | .error f, .ok _ => .error [f]
    | .error f, .error fs => .error (f :: fs)

def both {α β : Type} :
    Except (List FieldFault) α → Except (List FieldFault) β → Except (List FieldFault) (α × β)
  | .ok a, .ok b => .ok (a, b)
  | .ok _, .error fs => .error fs
  | .error fs, .ok _ => .error fs
  | .error fs, .error gs => .error (fs ++ gs)

def locate {α : Type} (place : List FieldStep) (r : Except FieldProblem α) :
    Except (List FieldFault) α :=
  r.mapError fun p => [⟨place, p⟩]

end FieldFault

namespace Value

def wordLimit : Int := 0x8000000000000000

def fitsWord (i : Int) : Bool := -wordLimit ≤ i && i < wordLimit

def decoded? (bs : List UInt8) : Option String := String.fromUTF8? ⟨bs.toArray⟩

/-- A text. Bytes are taken for one if they can be. -/
def asText : Value → Except FieldProblem String
  | text s => .ok s
  | bytes bs =>
    match decoded? bs with
    | some s => .ok s
    | none => .error .notUnicode
  | brokenText => .error .notUnicode
  | _ => .error .notText

def truthWord (s : String) : Except FieldProblem Bool :=
  let word := String.ofList (s.toList.map Char.toLower)
  if ["0", "off", "f", "false", "n", "no"].contains word then .ok false
  else if ["1", "on", "t", "true", "y", "yes"].contains word then .ok true
  else .error .unclearTruth

def truthNumber (i : Int) : Except FieldProblem Bool :=
  if i = 0 then .ok false
  else if i = 1 then .ok true
  else if fitsWord i then .error .unclearTruth
  else .error .notTruth

def asTruth : Value → Except FieldProblem Bool
  | bool b => .ok b
  | int i => truthNumber i
  | float x =>
    match x.toInt? with
    | some i => if i = -wordLimit then .error .notTruth else truthNumber i
    | none => .error .notTruth
  | text s => truthWord s
  | bytes bs =>
    match decoded? bs with
    | some s => truthWord s
    | none => .error .unclearTruth
  | brokenText => .error .notUnicode
  | _ => .error .notTruth

def keyStep : Value → FieldStep
  | int i => if fitsWord i then .index i else .name (toString i)
  | bool b => .index (if b then 1 else 0)
  | v => .name v.keyText

end Value

end NamespacePlan
