import NamespacePlan.Xml.Entity

/-!
Declarations inside a document: the entities they define, and the attributes they give a type or a
default. Element and notation declarations are only checked for their form.
-/

namespace NamespacePlan.Xml

structure AttributeDeclaration where
  element : String
  name : String
  words : Bool
  value : Option (List Char)
  deriving DecidableEq, Repr

structure Subset where
  entities : Entities := {}
  parameters : List (String × Entity) := []
  attributes : List AttributeDeclaration := []
  /-- The room left for the texts of entities that stand for declarations. -/
  room : Nat := Entities.room
  deriving DecidableEq, Repr

namespace Subset

def addEntity (s : Subset) (parameter : Bool) (name : String) (e : Entity) : Subset :=
  if parameter then
    if (s.parameters.lookup name).isSome then s
    else { s with parameters := s.parameters ++ [(name, e)] }
  else if (s.entities.known.lookup name).isSome then s
  else { s with entities := { s.entities with known := s.entities.known ++ [(name, e)] } }

def attribute? (s : Subset) (element name : String) : Option AttributeDeclaration :=
  s.attributes.find? fun d => d.element == element && d.name == name

def addAttribute (s : Subset) (d : AttributeDeclaration) : Subset :=
  if (s.attribute? d.element d.name).isSome then s
  else { s with attributes := s.attributes ++ [d] }

def isWordList (s : Subset) (element name : String) : Bool :=
  (s.attribute? element name).any AttributeDeclaration.words

def defaults (s : Subset) (element : String) : List (String × List Char) :=
  s.attributes.filterMap fun d => if d.element = element then d.value.map (d.name, ·) else none

/-! Entity declarations. -/

/-- The text of an entity between its quotes: character references are replaced, others stay, and
entities for declarations may not be named. The fuel is the length of the text. -/
def entityText? : Nat → List Char → Option (List Char)
  | _, [] => some []
  | 0, _ :: _ => none
  | fuel + 1, '&' :: '#' :: rest => do
    let (c, rest) ← charReference? rest
    (entityText? fuel rest).map (c :: ·)
  | fuel + 1, '&' :: rest => do
    let (name, rest) ← entityName? rest
    (entityText? fuel rest).map fun t => '&' :: name.toList ++ ';' :: t
  | fuel + 1, c :: rest =>
    if c = '%' || !isChar c then none else (entityText? fuel rest).map (c :: ·)

/-- What an entity stands for: a text in quotes, or an external one, which can be data of some
notation. -/
def entityValue? (parameter : Bool) (cs : List Char) : Option (Entity × List Char) :=
  match quoted? cs with
  | some (raw, rest) => (entityText? raw.length raw).map fun t => (.internal t, rest)
  | none => do
    let rest ← externalId? true cs
    match parameter, blanks? rest >>= behind? "NDATA".toList with
    | false, some tail => (blanks? tail >>= name?).map fun r => (.external, r.2)
    | _, _ => some (.external, rest)

def entityDeclaration? (s : Subset) (cs : List Char) : Option (Subset × List Char) := do
  let rest ← blanks? cs
  let (parameter, rest) ← match behind? ['%'] rest with
    | some tail => (blanks? tail).map (true, ·)
    | none => some (false, rest)
  let (name, rest) ← name? rest
  let (e, rest) ← blanks? rest >>= entityValue? parameter
  let rest ← behind? ['>'] (skipBlanks rest)
  some (s.addEntity parameter (String.ofList name) e, rest)

/-! Attribute declarations. -/

/-- The keywords of attribute types; those that begin another one stand behind it. -/
def typeWords : List String :=
  ["IDREFS", "IDREF", "ID", "ENTITY", "ENTITIES", "NMTOKENS", "NMTOKEN"]

def choice? (token : List Char → Option (List Char × List Char)) : Nat → List Char → Option (List Char)
  | 0, _ => none
  | fuel + 1, cs => do
    let (_, rest) ← token (skipBlanks cs)
    match skipBlanks rest with
    | '|' :: tail => choice? token fuel tail
    | ')' :: tail => some tail
    | _ => none

/-- The type of an attribute: whether its value is a list of words. -/
def attributeType? (cs : List Char) : Option (Bool × List Char) :=
  match behind? "CDATA".toList cs with
  | some rest => some (false, rest)
  | none =>
    match typeWords.findSome? fun w => behind? w.toList cs with
    | some rest => some (true, rest)
    | none =>
      match behind? "NOTATION".toList cs with
      | some rest =>
        (blanks? rest >>= behind? ['('] >>= choice? name? rest.length).map (true, ·)
      | none => (behind? ['('] cs >>= choice? nameToken? cs.length).map (true, ·)

def attributeDefault? (cs : List Char) : Option (Option (List Char) × List Char) :=
  match (behind? "#REQUIRED".toList cs).or (behind? "#IMPLIED".toList cs) with
  | some rest => some (none, rest)
  | none =>
    let value := match behind? "#FIXED".toList cs with
      | some rest => blanks? rest
      | none => some cs
    (value >>= quoted?).map fun r => (some r.1, r.2)

/-- The default of an attribute, if one is declared. -/
def defaultValue? (s : Subset) (words : Bool) : Option (List Char) → Option (Option (List Char))
  | none => some none
  | some raw => (s.entities.attributeValue true words raw).map some

def attributes? (element : String) : Nat → Subset → List Char → Option (Subset × List Char)
  | 0, _, _ => none
  | fuel + 1, s, cs =>
    match cs with
    | '>' :: rest => some (s, rest)
    | _ => do
      let (name, rest) ← name? cs
      let attr := String.ofList name
      let (words, rest) ← blanks? rest >>= attributeType?
      let (raw, rest) ← blanks? rest >>= attributeDefault?
      let value ← s.defaultValue? words raw
      let s := s.addAttribute ⟨element, attr, words, value⟩
      match rest with
      | '>' :: rest => some (s, rest)
      | _ => blanks? rest >>= attributes? element fuel s

def attributeDeclaration? (s : Subset) (cs : List Char) : Option (Subset × List Char) := do
  let (element, rest) ← blanks? cs >>= name?
  attributes? (String.ofList element) rest.length s (skipBlanks rest)

/-! Element and notation declarations. -/

def skipOccurrence : List Char → List Char
  | c :: rest => if c = '?' ∨ c = '*' ∨ c = '+' then rest else c :: rest
  | [] => []

mutual

def particle? (fuel : Nat) (cs : List Char) : Option (List Char) :=
  match fuel with
  | 0 => none
  | fuel + 1 =>
    match cs with
    | '(' :: rest => (group? fuel none rest).map skipOccurrence
    | _ => (name? cs).map fun r => skipOccurrence r.2

def group? (fuel : Nat) (separator : Option Char) (cs : List Char) : Option (List Char) :=
  match fuel with
  | 0 => none
  | fuel + 1 => do
    let rest ← particle? fuel (skipBlanks cs)
    match skipBlanks rest with
    | c :: tail =>
      if c = ')' then some tail
      else if (c = '|' ∨ c = ',') ∧ separator.all (· == c) then group? fuel (some c) tail
      else none
    | [] => none

end

def mixed? (cs : List Char) : Option (List Char) :=
  match skipBlanks cs with
  | ')' :: rest => some ((behind? ['*'] rest).getD rest)
  | '|' :: rest => choice? name? rest.length rest >>= behind? ['*']
  | _ => none

def content? (cs : List Char) : Option (List Char) :=
  match (behind? "EMPTY".toList cs).or (behind? "ANY".toList cs) with
  | some rest => some rest
  | none => do
    let rest ← behind? ['('] cs
    match behind? "#PCDATA".toList (skipBlanks rest) with
    | some tail => mixed? tail
    | none => particle? (2 * cs.length + 2) cs

def elementDeclaration? (cs : List Char) : Option (List Char) := do
  let (_, rest) ← blanks? cs >>= name?
  let rest ← blanks? rest >>= content?
  behind? ['>'] (skipBlanks rest)

def notationDeclaration? (cs : List Char) : Option (List Char) := do
  let (_, rest) ← blanks? cs >>= name?
  let rest ← blanks? rest >>= externalId? false
  behind? ['>'] (skipBlanks rest)

/-! All declarations. -/

def markup? (s : Subset) (cs : List Char) : Option (Subset × List Char) :=
  match behind? "<!--".toList cs, behind? "<?".toList cs with
  | some rest, _ => (commentEnd? rest).map (s, ·)
  | none, some rest => (instruction? rest).map (s, ·)
  | none, none =>
    match behind? "<!ENTITY".toList cs, behind? "<!ATTLIST".toList cs with
    | some rest, _ => s.entityDeclaration? rest
    | none, some rest => s.attributeDeclaration? rest
    | none, none =>
      match behind? "<!ELEMENT".toList cs, behind? "<!NOTATION".toList cs with
      | some rest, _ => (elementDeclaration? rest).map (s, ·)
      | none, some rest => (notationDeclaration? rest).map (s, ·)
      | none, none => none

/-- What a reference to an entity adds: the declarations in its text, which `inside` reads. What stands
in an external text is not known, and an entity that is not known may be declared there. -/
def refer? (s : Subset) (standalone : Bool) (inside : String → List Char → Subset → Option Subset)
    (name : String) : Option Subset :=
  let s := { s with entities := { s.entities with lenient := !standalone } }
  match s.parameters.lookup name with
  | some (.internal content) => inside name content s
  | some .external => some s
  | none => if standalone then none else some s

/-- Declarations up to the closing bracket, or, in the text of an entity, up to its end. Every step
takes a character, so the length of the text is fuel enough. -/
def declarationsWith? (standalone bracket : Bool)
    (inside : String → List Char → Subset → Option Subset) :
    Nat → Subset → List Char → Option (Subset × List Char)
  | 0, _, _ => none
  | fuel + 1, s, cs =>
    match skipBlanks cs with
    | [] => if bracket then none else some (s, [])
    | ']' :: rest => if bracket then some (s, rest) else none
    | '%' :: rest => do
      let (name, rest) ← entityName? rest
      let s ← s.refer? standalone inside name
      declarationsWith? standalone bracket inside fuel s rest
    | cs => do
      let (s, rest) ← s.markup? cs
      declarationsWith? standalone bracket inside fuel s rest

/-- The declarations in the text of an entity, which does not stand in its own text; `around` names the
entities whose texts it stands in. Each of these takes some of the room, so the room is fuel enough. -/
def inEntity? (standalone : Bool) :
    Nat → List String → String → List Char → Subset → Option Subset
  | 0, _, _, _, _ => none
  | fuel + 1, around, name, content, s =>
    if around.contains name then none
    else do
      let room ← Piece.roomBehind? s.room content
      let (s, _) ← declarationsWith? standalone false (inEntity? standalone fuel (name :: around))
        (content.length + 1) { s with room := room } content
      some s

/-- The declarations of a document type, up to the closing bracket. -/
def declarations? (standalone : Bool) (s : Subset) (cs : List Char) : Option (Subset × List Char) :=
  declarationsWith? standalone true (inEntity? standalone Entities.room []) (cs.length + 1) s cs

end Subset

end NamespacePlan.Xml
