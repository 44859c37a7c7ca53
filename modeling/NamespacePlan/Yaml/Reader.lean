import NamespacePlan.Text.Lines
import NamespacePlan.Text.Utf8
import NamespacePlan.Yaml.Document
import NamespacePlan.Yaml.ScalarValue

/-!
The value of a YAML text. Of two nodes without a value the one nearer to the root is reported, and of
equally near ones the first.
-/

namespace NamespacePlan.Yaml

/-- A node without a value: how deep it lies and why it has none. -/
structure Misfit where
  depth : Nat
  fault : Fault
  deriving DecidableEq, Repr

namespace Misfit

def here {α : Type} (f : Fault) : Except Misfit α := .error ⟨0, f⟩

def deeper {α : Type} (r : Except Misfit α) : Except Misfit α :=
  r.mapError fun m => { m with depth := m.depth + 1 }

/-- Both results, or the fault that is nearer to the root. -/
def both {α β : Type} : Except Misfit α → Except Misfit β → Except Misfit (α × β)
  | .ok a, .ok b => .ok (a, b)
  | .ok _, .error m => .error m
  | .error m, .ok _ => .error m
  | .error m, .error n => .error (if n.depth < m.depth then n else m)

end Misfit

namespace Node

open Misfit

def taggedValue (tag : Tag) (cs : List Char) : Except Fault Value :=
  match tag with
  | .null => .ok .null
  | .text => .ok (.text (String.ofList cs))
  | .bool => ScalarValue.bool cs
  | .int => ScalarValue.int cs
  | .float => ScalarValue.float cs
  | .binary => ScalarValue.binary cs
  | .timestamp => ScalarValue.timestamp cs
  | _ => .error .malformed

/-- The value of a scalar with a tag. Without a text it fails as any text would that no other type
admits. -/
def scalarValue (tag : Tag) (text : Option (List Char)) : Except Fault Value :=
  match tag, text with
  | .text, none => .ok .brokenText
  | tag, text => taggedValue tag (text.getD ['\ufffd'])

inductive Shape where
  | scalar
  | collection
  | none
  deriving DecidableEq, Repr

/-- The shape that a tag asks for; some tags cannot be read at all. -/
def shapeOf : Tag → Shape
  | .null | .bool | .int | .float | .binary | .timestamp | .text => .scalar
  | .sequence | .mapping | .set | .orderedMap | .pairs => .collection
  | .merge | .value | .unknown => .none

def isScalar : Node → Bool
  | scalar _ _ => true
  | _ => false

/-- The value of a node that is read as a scalar. The text of a collection is asked for twice where a
timestamp is, and the second time it has to be a scalar. -/
def asScalar (tag : Tag) (n : Node) : Except Fault Value :=
  n.link.text >>= fun text =>
    if tag = .timestamp ∧ n.isScalar = false then .error (.stray .collectionText)
    else scalarValue tag text

/-- The value of a node that is no collection of its tag: a scalar, or nothing. A collection is opened
only after the nodes beside it, so a collection of the wrong shape lies one level down. -/
def plainValue (tag : Tag) (n : Node) : Except Misfit Value :=
  match shapeOf tag with
  | .scalar => (asScalar tag n).mapError (⟨0, ·⟩)
  | .collection => .error ⟨1, .malformed⟩
  | .none => here .malformed

def asKey : Except Misfit Value → Except Misfit Value
  | .ok v => if v.isKey then .ok v else here .malformed
  | .error m => .error (if m.depth = 0 then m else ⟨0, .malformed⟩)

def isMapping : Node → Bool
  | mapping _ _ => true
  | enclosing _ m _ => m
  | _ => false

mutual

def value : Node → Except Misfit Value
  | scalar tag text => plainValue tag (scalar tag text)
  | enclosing tag isMapping link =>
    match tag, isMapping with
    | .mapping, true => .ok (.map [])
    | .set, true => .ok (.set [])
    | .sequence, false | .orderedMap, false | .pairs, false => .ok (.list [])
    | tag, isMapping => plainValue tag (enclosing tag isMapping link)
  | sequence tag items =>
    match tag with
    | .sequence => (deeper (values items)).map .list
    | .orderedMap | .pairs => (deeper (pairs items)).map .list
    | tag => plainValue tag (sequence tag items)
  | mapping tag entries =>
    match tag with
    | .mapping =>
      (deeper (both (merged entries) (own entries))).map fun r => .map (Value.mapOf (r.1 ++ r.2))
    | .set =>
      (deeper (both (merged entries) (own entries))).map
        fun r => .set ((Value.mapOf (r.1 ++ r.2)).map Prod.fst)
    | tag => plainValue tag (mapping tag entries)

def values : List Node → Except Misfit (List Value)
  | [] => .ok []
  | n :: ns => (both (value n) (values ns)).map fun r => r.1 :: r.2

/-- The pairs that mappings with one entry each stand for. -/
def pairs : List Node → Except Misfit (List Value)
  | [] => .ok []
  | mapping _ [(k, v)] :: ns =>
    (both (both (value k) (value v)) (pairs ns)).map fun r => .list [r.1.1, r.1.2] :: r.2
  | _ :: _ => here .malformed

/-- The entries of a mapping that are its own. The key `=` is a text. -/
def own : List (Node × Node) → Except Misfit (List (Value × Value))
  | [] => .ok []
  | (k, v) :: es =>
    if k.tag = .merge then own es
    else
      let key := if k.tag = .value then plainValue .text k else asKey (value k)
      (both (both key (value v)) (own es)).map fun r => r.1 :: r.2

def merged : List (Node × Node) → Except Misfit (List (Value × Value))
  | [] => .ok []
  | (k, v) :: es =>
    if k.tag = .merge then (both (source v) (merged es)).map fun r => r.1 ++ r.2
    else merged es

/-- The entries of a mapping to be merged, or of several, of which the first counts most. -/
def source : Node → Except Misfit (List (Value × Value))
  | mapping _ es => (both (merged es) (own es)).map fun r => r.1 ++ r.2
  | sequence _ ns => sources ns
  | enclosing _ true _ => .ok []
  | _ => here .malformed

def sources : List Node → Except Misfit (List (Value × Value))
  | [] => .ok []
  | n :: ns =>
    if n.isMapping then (both (source n) (sources ns)).map fun r => r.2 ++ r.1
    else here .malformed

end

end Node

def isPrintable (c : Char) : Bool :=
  let n := c.toNat
  c == '\t' || c == '\n' || c == '\x0d' || c == '\u0085' || (0x20 ≤ n && n ≤ 0x7E) ||
    (0xA0 ≤ n && n ≤ 0xD7FF) || (0xE000 ≤ n && n ≤ 0xFFFD) || 0x10000 ≤ n

/-- The value of a text in which collections may nest so deep. An empty one has the value null. -/
def readWithin (nesting : Option Nat) (cs : List Char) : Except Fault Value :=
  if !cs.all isPrintable then .error .malformed
  else
    match Document.ofTokens nesting (Token.ofText cs) with
    | .error f => .error f
    | .ok none => .ok .null
    | .ok (some n) => n.value.mapError Misfit.fault

def read (cs : List Char) : Except Fault Value := readWithin none cs

/-! Files. -/

inductive ReadFault where
  | undecodable (f : Text.Utf8.Fault)
  | text (f : Fault)
  deriving DecidableEq, Repr

/-- The value of the bytes of a file, all of which are decoded first. -/
def readBytes (nesting : Option Nat) (bytes : List UInt8) : Except ReadFault Value :=
  match Text.Utf8.decode bytes with
  | .error f => .error (.undecodable f)
  | .ok cs => (readWithin nesting (Text.plainLines cs)).mapError .text

end NamespacePlan.Yaml
