import NamespacePlan.OrderedMap
import NamespacePlan.Xml.Encoding
import NamespacePlan.Xml.Subset

/-!
The start tag of the root element: the prefixes it binds and its other attributes. Nothing behind the
tag is looked at: reading stops in front of the sign that ends it.
-/

namespace NamespacePlan.Xml

structure RootTag where
  name : String
  /-- Prefixes and URIs in the order of their declaration; the default namespace has the empty
  prefix. -/
  bindings : List (String × String) := []
  attributes : List (String × String) := []
  deriving DecidableEq, Repr

namespace RootTag

/-! Names. -/

inductive Role where
  /-- A binding of a prefix, or of the default namespace. -/
  | binding (pre : String)
  | other
  deriving DecidableEq, Repr

/-- A prefix in front of a colon, and a name behind it, if the name of an attribute is a pair. -/
def parts? (name : List Char) : Option (List Char × List Char) :=
  let pre := name.takeWhile (· != ':')
  match name.drop pre.length with
  | ':' :: c :: rest =>
    if !pre.isEmpty && c != ':' && isNameStart c then some (pre, c :: rest) else none
  | _ => none

def roleOf (name : List Char) : Role :=
  if name = "xmlns".toList then .binding ""
  else
    match parts? name with
    | some (pre, rest) => if pre = "xmlns".toList then .binding (String.ofList rest) else .other
    | none => .other

def reservedUris : List String :=
  ["http://www.w3.org/XML/1998/namespace", "http://www.w3.org/2000/xmlns/"]

/-- A binding that is taken over. Reserved prefixes and URIs are not bound, and only the default
namespace may be empty. -/
def isBound (pre uri : String) : Bool :=
  pre != "xml" && pre != "xmlns" && !reservedUris.contains uri && (pre == "" || uri != "")

/-! Attributes. -/

def attribute? (cs : List Char) : Option ((List Char × List Char) × List Char) := do
  let (name, rest) ← name? cs
  let rest ← behind? ['='] (skipBlanks rest)
  let (raw, rest) ← quoted? (skipBlanks rest)
  some ((name, raw), rest)

def valueOf? (s : Subset) (element : String) (name raw : List Char) : Option String :=
  let words := s.isWordList element (String.ofList name)
  (s.entities.attributeValue (roleOf name != .other) words raw).map String.ofList

/-- Adds an attribute that is written in the tag. A name stands there only once. -/
def add? (t : RootTag) (name : List Char) (value : String) : Option RootTag :=
  match roleOf name with
  | .binding pre =>
    if !isBound pre value then some t
    else if t.bindings.any fun b => b.1 == pre then none
    else some { t with bindings := t.bindings ++ [(pre, value)] }
  | .other =>
    let key := String.ofList name
    if t.attributes.any fun a => a.1 == key then none
    else some { t with attributes := t.attributes ++ [(key, value)] }

/-- Nothing more stands in the tag: it is closed, or the text ends there. A control character ends it
too. -/
def isEnd : List Char → Bool
  | [] => true
  | '>' :: _ => true
  | '/' :: '>' :: _ => true
  | c :: _ => c < ' ' && !isBlank c

/-- The attributes of a tag, up to its end. White space stands in front of each. Every attribute takes a
character, so the length of the text is fuel enough. -/
def attributes? (s : Subset) : Nat → RootTag → List Char → Option (RootTag × List Char)
  | 0, _, _ => none
  | fuel + 1, t, cs =>
    if isEnd cs then some (t, cs)
    else do
      let ((name, raw), rest) ← attribute? cs
      let value ← valueOf? s t.name name raw
      let t ← t.add? name value
      match rest with
      | '>' :: _ => some (t, rest)
      | '/' :: '>' :: _ => some (t, rest)
      | _ => blanks? rest >>= attributes? s fuel t

def addDefault (t : RootTag) (name : List Char) (value : String) : RootTag :=
  match roleOf name with
  | .binding pre =>
    if pre = "xml" || t.bindings.any fun b => b.1 == pre then t
    else { t with bindings := t.bindings ++ [(pre, value)] }
  | .other => (t.add? name value).getD t

def withDefaults (t : RootTag) (s : Subset) : RootTag :=
  (s.defaults t.name).foldl (fun t d => t.addDefault d.1.toList (String.ofList d.2)) t

def read (s : Subset) (cs : List Char) : Option (RootTag × List Char) := do
  let (name, rest) ← name? cs
  let (t, rest) ← attributes? s (rest.length + 1) { name := String.ofList name } (skipBlanks rest)
  some (t.withDefaults s, rest)

/-! In front of the tag. -/

/-- The declarations that stand in a document type itself, if there are any, up to its end. -/
def ownDeclarations? (standalone : Bool) (s : Subset) (cs : List Char) :
    Option (Subset × List Char) :=
  match skipBlanks cs with
  | '[' :: inner => do
    let (s, rest) ← Subset.declarations? standalone s inner
    let rest ← behind? ['>'] (skipBlanks rest)
    some (s, rest)
  | rest => (behind? ['>'] rest).map (s, ·)

/-- The document type behind its keyword: its name, where else declarations are, and those that stand
here. -/
def documentType? (standalone : Bool) (cs : List Char) : Option (Subset × List Char) := do
  let (_, rest) ← blanks? cs >>= name?
  let rest := skipBlanks rest
  let outside := externalId? true rest
  let named := "SYSTEM".toList.isPrefixOf rest || "PUBLIC".toList.isPrefixOf rest
  if named && outside.isNone then none
  else
    ownDeclarations? standalone { entities := { lenient := outside.isSome && !standalone } }
      (outside.getD rest)

/-- The tag behind comments, instructions and at most one document type. -/
def behindProlog (standalone : Bool) :
    Nat → Option Subset → List Char → Option (RootTag × List Char)
  | 0, _, _ => none
  | fuel + 1, subset, cs =>
    let cs := skipBlanks cs
    match behind? "<!--".toList cs, behind? "<?".toList cs with
    | some rest, _ => commentEnd? rest >>= behindProlog standalone fuel subset
    | none, some rest => instruction? rest >>= behindProlog standalone fuel subset
    | none, none =>
      match subset, behind? "<!DOCTYPE".toList cs with
      | none, some rest => do
        let (s, rest) ← documentType? standalone rest
        behindProlog standalone fuel (some s) rest
      | _, _ => behind? ['<'] cs >>= read (subset.getD {})

/-- The tag of a document, and the text from the end of the tag on. -/
def scan (cs : List Char) : Option (RootTag × List Char) :=
  if Declaration.begins cs then do
    let (d, rest) ← Declaration.read cs
    behindProlog d.standalone (rest.length + 1) none rest
  else behindProlog false (cs.length + 1) none cs

def ofText (cs : List Char) : Option RootTag := (scan cs).map Prod.fst

def ofBytes (bs : List UInt8) : Option RootTag := decodeDocument bs >>= ofText

def value? (t : RootTag) (name : String) : Option String := t.attributes.lookup name

end RootTag

end NamespacePlan.Xml
