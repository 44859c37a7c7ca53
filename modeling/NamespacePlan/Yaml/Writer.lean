import NamespacePlan.Data.Datum
import NamespacePlan.Yaml.Scalar

/-!
YAML text in block layout, in ASCII only. Fields stand one per line, items behind dashes in the column
of their key; a key that is empty, long or of several lines is marked by a question mark.
-/

namespace NamespacePlan.Yaml

def spaces (n : Nat) : List Char := List.replicate n ' '

/-- A key short enough to share a line with its value. -/
def isSimpleKey (k : List Char) : Bool :=
  !k.isEmpty && !k.any Style.isBreak && decide (k.length < 123)

def writeText (indent col : Nat) (s : String) : List Char :=
  Scalar.write ⟨indent + 2, true⟩ (Style.of false s.toList) col s.toList

def writeKey (k : List Char) : List Char := Scalar.write ⟨0, false⟩ (Style.of true k) 0 k

def writeBool (b : Bool) : List Char := if b then "true".toList else "false".toList

/-- What stands before a value on its line: a simple key with its colon, up to a column, or an
indicator of one character. -/
inductive Place where
  | key (col : Nat)
  | indicator
  deriving DecidableEq, Repr

namespace Place

def column (indent : Nat) : Place → Nat
  | key col => col
  | indicator => indent + 1

/-- The way from the place to the first character of a collection at the given column. -/
def lead (indent : Nat) : Place → List Char
  | key _ => '\n' :: spaces indent
  | indicator => [' ']

def listIndent (indent : Nat) : Place → Nat
  | key _ => indent
  | indicator => indent + 2

end Place

def openField (indent : Nat) (k : String) : List Char × Place :=
  if isSimpleKey k.toList then
    let key := writeKey k.toList
    (key ++ [':'], .key (indent + key.length + 1))
  else ('?' :: ' ' :: writeText indent (indent + 2) k ++ '\n' :: spaces indent ++ [':'], .indicator)

mutual

/-- A value; the fields or dashes around it stand at `indent`. -/
def writeValue (indent : Nat) (place : Place) : Datum → List Char
  | .null => " null".toList
  | .bool b => ' ' :: writeBool b
  | .text s => ' ' :: writeText indent (place.column indent + 1) s
  | .list [] => " []".toList
  | .list (d :: ds) =>
    let inner := place.listIndent indent
    place.lead inner ++ '-' :: writeValue inner .indicator d ++ writeItems inner ds
  | .object [] => [' ', '{', '}']
  | .object ((k, d) :: fs) =>
    let inner := indent + 2
    let (head, next) := openField inner k
    place.lead inner ++ head ++ writeValue inner next d ++ writeFields inner fs

def writeItems (indent : Nat) : List Datum → List Char
  | [] => []
  | d :: ds =>
    '\n' :: spaces indent ++ '-' :: writeValue indent .indicator d ++ writeItems indent ds

def writeFields (indent : Nat) : List (String × Datum) → List Char
  | [] => []
  | (k, d) :: fs =>
    let (head, next) := openField indent k
    '\n' :: spaces indent ++ head ++ writeValue indent next d ++ writeFields indent fs

end

def writeDocument : List (String × Datum) → List Char
  | [] => ['{', '}', '\n']
  | (k, d) :: fs =>
    let (head, next) := openField 0 k
    head ++ writeValue 0 next d ++ writeFields 0 fs ++ ['\n']

def render (fields : List (String × Datum)) : String := String.ofList (writeDocument fields)

end NamespacePlan.Yaml
