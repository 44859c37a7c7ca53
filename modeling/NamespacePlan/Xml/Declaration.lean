import NamespacePlan.Xml.Lexeme

/-!
The declaration at the beginning of a document: its version, its encoding and whether it stands alone.
-/

namespace NamespacePlan.Xml

structure Declaration where
  encoding : Option String := none
  standalone : Bool := false
  deriving DecidableEq, Repr

namespace Declaration

def setting? (word : String) (cs : List Char) : Option (List Char × List Char) := do
  let rest ← behind? word.toList cs
  let rest ← behind? ['='] (skipBlanks rest)
  quoted? (skipBlanks rest)

/-- A version that can be read: one, whatever stands behind the point. -/
def isVersion : List Char → Bool
  | '1' :: '.' :: digits => digits.all Text.isDigit
  | _ => false

def isEncodingChar (c : Char) : Bool :=
  ('a' ≤ c && c ≤ 'z') || ('A' ≤ c && c ≤ 'Z') || Text.isDigit c || c == '.' || c == '_' || c == '-'

def isEncodingName : List Char → Bool
  | c :: cs =>
    (('a' ≤ c && c ≤ 'z') || ('A' ≤ c && c ≤ 'Z')) && cs.all isEncodingChar
  | [] => false

def begins (cs : List Char) : Bool :=
  match behind? "<?xml".toList cs with
  | some (c :: _) => isBlank c
  | _ => false

def encoding? (cs : List Char) : Option (Option String × List Char) :=
  match blanks? cs with
  | some rest =>
    if "encoding".toList.isPrefixOf rest then do
      let (e, rest) ← setting? "encoding" rest
      if isEncodingName e then some (some (String.ofList e), rest) else none
    else some (none, cs)
  | none => some (none, cs)

def standalone? (cs : List Char) : Option (Bool × List Char) :=
  match blanks? cs with
  | some rest =>
    if "standalone".toList.isPrefixOf rest then do
      let (answer, rest) ← setting? "standalone" rest
      if answer = "yes".toList then some (true, rest)
      else if answer = "no".toList then some (false, rest)
      else none
    else some (false, rest)
  | none => some (false, cs)

def read (cs : List Char) : Option (Declaration × List Char) := do
  let rest ← behind? "<?xml".toList cs >>= blanks?
  let (version, rest) ← setting? "version" rest
  if !isVersion version then none
  else
    let (encoding, rest) ← encoding? rest
    let (standalone, rest) ← standalone? rest
    let rest ← behind? "?>".toList (skipBlanks rest)
    some (⟨encoding, standalone⟩, rest)

end Declaration

end NamespacePlan.Xml
