import NamespacePlan.Text.Hex
import NamespacePlan.Text.Digit
import NamespacePlan.Xml.Character

/-!
The small parts of a document. Each reader takes its part off the beginning of a text and gives the
rest, or nothing when the part is not there or not well formed.
-/

namespace NamespacePlan.Xml

def behind? (word cs : List Char) : Option (List Char) :=
  if word.isPrefixOf cs then some (cs.drop word.length) else none

def skipBlanks (cs : List Char) : List Char := cs.dropWhile isBlank

def blanks? (cs : List Char) : Option (List Char) :=
  match cs with
  | c :: rest => if isBlank c then some (skipBlanks rest) else none
  | [] => none

/-- A name. The character with code zero may not stand behind it. -/
def name? (cs : List Char) : Option (List Char × List Char) :=
  match cs with
  | c :: _ =>
    let rest := cs.dropWhile isNameChar
    if isNameStart c && rest.head? != some '\x00' then some (cs.takeWhile isNameChar, rest)
    else none
  | [] => none

def nameToken? (cs : List Char) : Option (List Char × List Char) :=
  let token := cs.takeWhile isNameChar
  if token.isEmpty then none else some (token, cs.drop token.length)

def quoted? (cs : List Char) : Option (List Char × List Char) :=
  match cs with
  | q :: rest =>
    if q = '"' ∨ q = '\'' then
      let inside := rest.takeWhile (· != q)
      if inside.length < rest.length then some (inside, rest.drop (inside.length + 1)) else none
    else none
  | [] => none

/-- The inside of a comment up to its end. Two hyphens stand only there. -/
def commentEnd? : List Char → Option (List Char)
  | '-' :: '-' :: rest =>
    match rest with
    | '>' :: tail => some tail
    | _ => none
  | c :: rest => if isChar c then commentEnd? rest else none
  | [] => none

def instructionEnd? : List Char → Option (List Char)
  | '?' :: '>' :: rest => some rest
  | c :: rest => if isChar c then instructionEnd? rest else none
  | [] => none

def isReserved (name : List Char) : Bool := name.map Char.toLower == ['x', 'm', 'l']

def instruction? (cs : List Char) : Option (List Char) := do
  let (name, rest) ← name? cs
  if isReserved name then none
  else (behind? "?>".toList rest).or (blanks? rest >>= instructionEnd?)

def charOfCode? (n : Nat) : Option Char :=
  let c := Char.ofNat n
  if c.toNat = n && isChar c then some c else none

def charReference? (cs : List Char) : Option (Char × List Char) :=
  let (digits, rest, code) := match cs with
    | 'x' :: hex =>
      let ds := hex.takeWhile fun c => (Text.hexValue? c).isSome
      (ds, hex.drop ds.length, (Text.hexNumber? ds).getD 0)
    | _ =>
      let ds := cs.takeWhile Text.isDigit
      (ds, cs.drop ds.length, Text.natOf ds)
  match digits, rest with
  | [], _ => none
  | _, ';' :: rest => (charOfCode? code).map (·, rest)
  | _, _ => none

def entityName? (cs : List Char) : Option (String × List Char) :=
  match name? cs with
  | some (name, ';' :: rest) => some (String.ofList name, rest)
  | _ => none

/-- Where an external text is: a system identifier, with or without a public one in front. Where it is
`strict`, a public identifier does not stand alone. -/
def externalId? (strict : Bool) (cs : List Char) : Option (List Char) :=
  match behind? "SYSTEM".toList cs, behind? "PUBLIC".toList cs with
  | some rest, _ => (blanks? rest >>= quoted?).map Prod.snd
  | none, some rest => do
    let (identifier, rest) ← blanks? rest >>= quoted?
    if identifier.all isPublicChar then
      if strict then (blanks? rest >>= quoted?).map Prod.snd
      else
        match quoted? (skipBlanks rest) with
        | some (_, tail) => some tail
        | none => some rest
    else none
  | none, none => none

end NamespacePlan.Xml
