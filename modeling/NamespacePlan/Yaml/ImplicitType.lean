import NamespacePlan.Yaml.Moment

/-!
The type that an unquoted scalar has by its looks. The forms of one type are recognised by reading
the text from the left; what no form takes to its end is a text.
-/

namespace NamespacePlan.Yaml

inductive ImplicitType where
  | text
  | bool
  | int
  | float
  | null
  | timestamp
  | merge
  | value
  deriving DecidableEq, Repr

namespace ImplicitType

open Text

def isDigitOrGap (c : Char) : Bool := isDigit c || c == '_'

def skipSign : List Char → List Char
  | '+' :: cs => cs
  | '-' :: cs => cs
  | cs => cs

def isRun (p : Char → Bool) : List Char → Bool
  | [] => false
  | c :: cs => p c && cs.all p

def digitRun? : List Char → Option (List Char)
  | [] => none
  | c :: cs => if isDigit c then some (cs.dropWhile isDigitOrGap) else none

/-- Groups `:d` or `:dd` below 60, as many as follow; the rest, and whether there was a group. -/
def skipSixties : List Char → Bool × List Char
  | ':' :: a :: b :: cs =>
    if isDigit a && isDigit b then
      if a ≤ '5' then (true, (skipSixties cs).2) else (false, ':' :: a :: b :: cs)
    else if isDigit a then (true, (skipSixties (b :: cs)).2)
    else (false, ':' :: a :: b :: cs)
  | ':' :: a :: [] => if isDigit a then (true, []) else (false, [':', a])
  | cs => (false, cs)

def isExponent : List Char → Bool
  | [] => true
  | e :: s :: cs => (e == 'e' || e == 'E') && (s == '+' || s == '-') && isRun isDigit cs
  | _ => false

/-- Digits, a point and perhaps an exponent; or a point in front of digits. -/
def isPointed (cs : List Char) : Bool :=
  (match digitRun? (skipSign cs) with
   | some ('.' :: rest) => isExponent (rest.dropWhile isDigitOrGap)
   | _ => false) ||
  match cs with
  | '.' :: rest =>
    match digitRun? rest with
    | some tail => isExponent tail
    | none => false
  | _ => false

def isPointedSixties (cs : List Char) : Bool :=
  match digitRun? (skipSign cs) with
  | some rest =>
    match skipSixties rest with
    | (true, '.' :: tail) => tail.all isDigitOrGap
    | _ => false
  | none => false

def isSpecialFloat (cs : List Char) : Bool :=
  [".inf".toList, ".Inf".toList, ".INF".toList].contains (skipSign cs) ||
    [".nan".toList, ".NaN".toList, ".NAN".toList].contains cs

def isFloat (cs : List Char) : Bool := isPointed cs || isPointedSixties cs || isSpecialFloat cs

def isInt (cs : List Char) : Bool :=
  match skipSign cs with
  | [] => false
  | '0' :: rest =>
    rest.isEmpty || isRun (fun c => ('0' ≤ c && c ≤ '7') || c == '_') rest ||
    (match rest with
     | 'b' :: ds => isRun (fun c => c == '0' || c == '1' || c == '_') ds
     | 'x' :: ds =>
       isRun (fun c => isDigitOrGap c || ('a' ≤ c && c ≤ 'f') || ('A' ≤ c && c ≤ 'F')) ds
     | _ => false)
  | c :: rest =>
    isDigit c &&
      match skipSixties (rest.dropWhile isDigitOrGap) with
      | (_, []) => true
      | _ => false

def isTimestamp (cs : List Char) : Bool :=
  match Moment.read? cs with
  | some m => m.time.isSome || cs.length == 10
  | none => false

def boolWords : List String :=
  ["yes", "Yes", "YES", "no", "No", "NO", "true", "True", "TRUE", "false", "False", "FALSE",
   "on", "On", "ON", "off", "Off", "OFF"]

def nullWords : List String := ["~", "null", "Null", "NULL", ""]

def of (cs : List Char) : ImplicitType :=
  if boolWords.contains (String.ofList cs) then bool
  else if isFloat cs then float
  else if isInt cs then int
  else if cs = ['<', '<'] then merge
  else if nullWords.contains (String.ofList cs) then null
  else if isTimestamp cs then timestamp
  else if cs = ['='] then value
  else text

end ImplicitType

end NamespacePlan.Yaml
