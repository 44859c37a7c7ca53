import NamespacePlan.Xml.Lexeme

/-!
Entities and the attribute values that refer to them. A value is first cut into pieces, in which white
space is a space and references stand for themselves; then the references are replaced.
-/

namespace NamespacePlan.Xml

inductive Entity where
  | internal (content : List Char)
  | external
  deriving DecidableEq, Repr

structure Entities where
  known : List (String × Entity) := []
  /-- Entities may be declared in a text that is not read, so an unknown one is no fault. -/
  lenient : Bool := false
  deriving DecidableEq, Repr

def commonEntities : List (String × Char) :=
  [("lt", '<'), ("gt", '>'), ("amp", '&'), ("apos", '\''), ("quot", '"')]

inductive Piece where
  | char (c : Char)
  | reference (name : String)
  deriving DecidableEq, Repr

namespace Piece

/-- The pieces of a text. With `asSpace` every white space reads as a space, unless it is written as a
character reference. The sign that opens a tag may not stand in it. The fuel is the length of the
text. -/
def read (asSpace : Bool) : Nat → List Char → Option (List Piece)
  | _, [] => some []
  | 0, _ :: _ => none
  | fuel + 1, '&' :: '#' :: rest => do
    let (c, rest) ← charReference? rest
    (read asSpace fuel rest).map (char c :: ·)
  | fuel + 1, '&' :: rest => do
    let (name, rest) ← entityName? rest
    match commonEntities.lookup name with
    | some c => (read asSpace fuel rest).map (char c :: ·)
    | none => (read asSpace fuel rest).map (reference name :: ·)
  | fuel + 1, c :: rest =>
    if c = '<' || !isChar c then none
    else (read asSpace fuel rest).map (char (if asSpace && isBlank c then ' ' else c) :: ·)

/-- Without spaces at the ends, and with single ones elsewhere. `behindSpace` tells that nothing stands
in front, or a space. -/
def tighten (behindSpace : Bool) : List Piece → List Piece
  | [] => []
  | char ' ' :: ps =>
    let tail := tighten true ps
    if behindSpace || tail.isEmpty then tail else char ' ' :: tail
  | p :: ps => p :: tighten false ps

/-- The room that the text of an entity leaves, if there is enough: a reference takes some of it besides
the text. -/
def roomBehind? (room : Nat) (content : List Char) : Option Nat :=
  if room < content.length + 20 then none else some (room - (content.length + 20))

/-- The room that is left when the entities of pieces, `depth` deep, have been replaced, unless there is
too little of it. -/
def roomLeft (es : Entities) : Nat → Nat → List Piece → Option Nat
  | 0, _, _ => none
  | depth + 1, room, ps =>
    ps.foldlM (fun room p => do
      match p with
      | char _ => some room
      | reference name =>
        match es.known.lookup name with
        | some (.internal content) =>
          let room ← roomBehind? room content
          let ps ← read false content.length content
          roomLeft es depth room ps
        | _ => some room) room

/-- The characters of pieces, references to entities being replaced `depth` deep. -/
def expand (asSpace : Bool) (es : Entities) : Nat → List Piece → Option (List Char)
  | 0, _ => none
  | depth + 1, ps =>
    (ps.mapM fun p =>
      match p with
      | char c => some [c]
      | reference name =>
        match es.known.lookup name with
        | some (.internal content) =>
          read asSpace content.length content >>= expand asSpace es depth
        | some .external => none
        | none => if es.lenient then some [] else none).map List.flatten

end Piece

namespace Entities

/-- How deep the entities of an attribute may stand in each other. -/
def depthLimit : Nat := 20

/-- The room for the texts of all entities of an attribute, and for those of all declarations. -/
def room : Nat := 1000000

/-- The value of an attribute between its quotes. White space in the text of an entity counts as spaces
only for the values that `asSpace` tells. -/
def attributeValue (es : Entities) (asSpace tight : Bool) (cs : List Char) : Option (List Char) := do
  let ps ← Piece.read true cs.length cs
  let _ ← Piece.roomLeft es depthLimit room ps
  Piece.expand asSpace es depthLimit (if tight then Piece.tighten true ps else ps)

end Entities

end NamespacePlan.Xml
