import NamespacePlan.Yaml.Lexer

/-!
The nodes of a document: what its tokens say about scalars, sequences and mappings once anchors,
aliases and tags are settled. An alias stands for the whole node that it names, unless it stands inside
that node; then only the tag of the node and its text count.
-/

namespace NamespacePlan.Yaml

inductive Tag where
  | null
  | bool
  | int
  | float
  | binary
  | timestamp
  | text
  | sequence
  | mapping
  | set
  | orderedMap
  | pairs
  | merge
  | value
  | unknown
  deriving DecidableEq, Repr

namespace Tag

def names : List (String × Tag) :=
  [("null", null), ("bool", bool), ("int", int), ("float", float), ("binary", binary),
   ("timestamp", timestamp), ("str", text), ("seq", sequence), ("map", mapping), ("set", set),
   ("omap", orderedMap), ("pairs", pairs), ("merge", merge), ("value", value)]

def standard : String := "tag:yaml.org,2002:"

def ofName (s : String) : Tag :=
  ((names.find? fun e => standard ++ e.1 == s).map Prod.snd).getD unknown

def ofLooks (cs : List Char) : Tag :=
  match ImplicitType.of cs with
  | .text => text
  | .bool => bool
  | .int => int
  | .float => float
  | .null => null
  | .timestamp => timestamp
  | .merge => merge
  | .value => value

end Tag

/-- What is reached as the text of a node. -/
inductive Link where
  /-- The text of a collection of that name which is not closed yet. -/
  | opened (name : String)
  | closed (text : Except Fault (Option (List Char)))
  deriving Repr

/-- A text that leads back to itself has no end. -/
def Link.text : Link → Except Fault (Option (List Char))
  | opened _ => .error (.stray .tooDeep)
  | closed text => text

inductive Node where
  | scalar (tag : Tag) (text : Option (List Char))
  | sequence (tag : Tag) (items : List Node)
  | mapping (tag : Tag) (entries : List (Node × Node))
  /-- An alias inside the collection that it names. -/
  | enclosing (tag : Tag) (isMapping : Bool) (link : Link)
  deriving Repr

namespace Node

def empty : Node := scalar .null (some [])

def tag : Node → Tag
  | scalar t _ | sequence t _ | mapping t _ | enclosing t _ _ => t

/-- Where the text of a node is. A mapping has the text of its value key, a sequence has none. -/
def link : Node → Link
  | scalar _ text => .closed (.ok text)
  | sequence _ _ => .closed (.error .malformed)
  | mapping _ entries => ofEntries entries
  | enclosing _ _ l => l
where
  ofEntries : List (Node × Node) → Link
    | [] => .closed (.error .malformed)
    | (k, v) :: rest => if k.tag = .value then link v else ofEntries rest

mutual

/-- The node behind the end of a collection: aliases inside it that name it have its text. -/
def tie (name : String) (l : Link) : Node → Node
  | scalar t text => scalar t text
  | sequence t items => sequence t (tieAll name l items)
  | mapping t entries => mapping t (tieEntries name l entries)
  | enclosing t isMapping (.opened a) => enclosing t isMapping (if a = name then l else .opened a)
  | enclosing t isMapping (.closed text) => enclosing t isMapping (.closed text)

def tieAll (name : String) (l : Link) : List Node → List Node
  | [] => []
  | n :: ns => tie name l n :: tieAll name l ns

def tieEntries (name : String) (l : Link) : List (Node × Node) → List (Node × Node)
  | [] => []
  | (k, v) :: es => (tie name l k, tie name l v) :: tieEntries name l es

end

structure Rest where
  tokens : List Token
  anchors : List (String × Node) := []
  deriving Repr

def Rest.at (r : Rest) (ts : List Token) : Rest := { r with tokens := ts }

def Rest.name (r : Rest) (anchor : Option String) (n : Node) : Rest :=
  match anchor with
  | none => r
  | some a => { r with anchors := (a, n) :: r.anchors }

def unexpected {α : Type} : List Token → Except Fault α
  | .stop f :: _ => .error f
  | _ => .error .malformed

structure Properties where
  anchor : Option String := none
  tag : Option (Option String × String) := none
  deriving DecidableEq, Repr

def properties : List Token → Properties × List Token
  | .anchor a :: .tag h s :: ts => (⟨some a, some (h, s)⟩, ts)
  | .tag h s :: .anchor a :: ts => (⟨some a, some (h, s)⟩, ts)
  | .anchor a :: ts => (⟨some a, none⟩, ts)
  | .tag h s :: ts => (⟨none, some (h, s)⟩, ts)
  | ts => (⟨none, none⟩, ts)

/-- The full name of a tag; its handle has to be known. -/
def tagName (prefixes : List (String × String)) :
    Option (Option String × String) → Except Fault (Option String)
  | none => .ok none
  | some (none, s) => .ok (some s)
  | some (some h, s) =>
    match prefixes.lookup h with
    | none => .error .malformed
    | some p => .ok (some (p ++ s))

/-- The tag of a scalar: by its looks when nothing else is said, or by the tag `!`. -/
def scalarTag (name : Option String) (plain : Bool) (text : Option (List Char)) : Tag :=
  if name = some "!" ∨ (name = none ∧ plain) then (text.map Tag.ofLooks).getD .text
  else (name.map Tag.ofName).getD .text

def collectionTag (name : Option String) (default : Tag) : Tag :=
  match name with
  | none => default
  | some s => if s = "!" then default else Tag.ofName s

def optional (ends : List Token) (read : Rest → Except Fault (Node × Rest)) (r : Rest) :
    Except Fault (Node × Rest) :=
  if r.tokens.head?.any ends.contains then .ok (empty, r) else read r

/-- What a scalar leaves: the scalar under its name, and the tokens behind it. -/
def leave (props : Properties) (n : Node) (r : Rest) : Node × Rest := (n, r.name props.anchor n)

/-- What a closed collection leaves. What was named inside it is tied as well. -/
def close (props : Properties) (n : Node) (r : Rest) : Node × Rest :=
  match props.anchor with
  | none => (n, r)
  | some a =>
    let tied := tie a n.link
    (tied n, { r with anchors := (a, tied n) :: r.anchors.map fun e => (e.1, tied e.2) })

/-- How deep collections may still nest inside one that is opened. -/
def enter : Option Nat → Except Fault (Option Nat)
  | none => .ok none
  | some 0 => .error (.stray .tooDeep)
  | some (n + 1) => .ok (some n)

def orEmpty (props : Properties) (name : Option String) (r : Rest) : Except Fault (Node × Rest) :=
  if props = ⟨none, none⟩ then unexpected r.tokens
  else .ok (leave props (scalar (scalarTag name true (some [])) (some [])) r)

def separated (first : Bool) (ts : List Token) : Except Fault (List Token) :=
  if first then .ok ts
  else
    match ts with
    | .flowEntry :: ts => .ok ts
    | ts => unexpected ts

mutual

/-- A node. Block collections may be forbidden; a sequence without indentation may be allowed. -/
def ofTokens (prefixes : List (String × String)) (nesting : Option Nat) (fuel : Nat)
    (block indentless : Bool) (r : Rest) : Except Fault (Node × Rest) :=
  match fuel with
  | 0 => .error .malformed
  | fuel + 1 =>
    match r.tokens with
    | .alias a :: ts =>
      match r.anchors.lookup a with
      | none => .error .malformed
      | some n => .ok (n, r.at ts)
    | _ => do
      let (props, ts) := properties r.tokens
      let name ← tagName prefixes props.tag
      if props.anchor.any fun a => (r.anchors.lookup a).isSome then .error .malformed
      else
        let seqTag := collectionTag name .sequence
        let mapTag := collectionTag name .mapping
        let inSequence := fun (ts : List Token) =>
          (r.at ts).name props.anchor (enclosing seqTag false (.closed (.error .malformed)))
        let inMapping := fun (ts : List Token) =>
          (r.at ts).name props.anchor (enclosing mapTag true (.opened (props.anchor.getD "")))
        match ts, block with
        | .blockEntry :: _, _ =>
          if indentless then do
            let nesting ← enter nesting
            let (items, r) ← indentlessItems prefixes nesting fuel (inSequence ts)
            .ok (close props (sequence seqTag items) r)
          else orEmpty props name (r.at ts)
        | .scalar text plain :: ts, _ =>
          .ok (leave props (scalar (scalarTag name plain text) text) (r.at ts))
        | .flowSequenceStart :: ts, _ => do
          let nesting ← enter nesting
          let (items, r) ← flowItems prefixes nesting fuel true (inSequence ts)
          .ok (close props (sequence seqTag items) r)
        | .flowMappingStart :: ts, _ => do
          let nesting ← enter nesting
          let (entries, r) ← flowEntries prefixes nesting fuel true (inMapping ts)
          .ok (close props (mapping mapTag entries) r)
        | .blockSequenceStart :: ts, true => do
          let nesting ← enter nesting
          let (items, r) ← blockItems prefixes nesting fuel (inSequence ts)
          .ok (close props (sequence seqTag items) r)
        | .blockMappingStart :: ts, true => do
          let nesting ← enter nesting
          let (entries, r) ← blockEntries prefixes nesting fuel (inMapping ts)
          .ok (close props (mapping mapTag entries) r)
        | ts, _ => orEmpty props name (r.at ts)

def blockItems (prefixes : List (String × String)) (nesting : Option Nat) (fuel : Nat)
    (r : Rest) : Except Fault (List Node × Rest) :=
  match fuel with
  | 0 => .error .malformed
  | fuel + 1 =>
    match r.tokens with
    | .blockEntry :: ts => do
      let (n, r) ← optional [.blockEntry, .blockEnd] (ofTokens prefixes nesting fuel true false)
        (r.at ts)
      let (ns, r) ← blockItems prefixes nesting fuel r
      .ok (n :: ns, r)
    | .blockEnd :: ts => .ok ([], r.at ts)
    | ts => unexpected ts

def indentlessItems (prefixes : List (String × String)) (nesting : Option Nat) (fuel : Nat)
    (r : Rest) : Except Fault (List Node × Rest) :=
  match fuel with
  | 0 => .error .malformed
  | fuel + 1 =>
    match r.tokens with
    | .blockEntry :: ts => do
      let (n, r) ← optional [.blockEntry, .key, .value, .blockEnd]
        (ofTokens prefixes nesting fuel true false) (r.at ts)
      let (ns, r) ← indentlessItems prefixes nesting fuel r
      .ok (n :: ns, r)
    | _ => .ok ([], r)

def blockEntries (prefixes : List (String × String)) (nesting : Option Nat) (fuel : Nat)
    (r : Rest) : Except Fault (List (Node × Node) × Rest) :=
  match fuel with
  | 0 => .error .malformed
  | fuel + 1 =>
    match r.tokens with
    | .key :: ts => do
      let ends := [.key, .value, .blockEnd]
      let (k, r) ← optional ends (ofTokens prefixes nesting fuel true true) (r.at ts)
      let (v, r) ← match r.tokens with
        | .value :: ts => optional ends (ofTokens prefixes nesting fuel true true) (r.at ts)
        | _ => .ok (empty, r)
      let (es, r) ← blockEntries prefixes nesting fuel r
      .ok ((k, v) :: es, r)
    | .blockEnd :: ts => .ok ([], r.at ts)
    | ts => unexpected ts

def flowPair (prefixes : List (String × String)) (nesting : Option Nat) (fuel : Nat)
    (close : Token) (r : Rest) : Except Fault ((Node × Node) × Rest) :=
  match fuel with
  | 0 => .error .malformed
  | fuel + 1 => do
    let (k, r) ← optional [.value, .flowEntry, close] (ofTokens prefixes nesting fuel false false) r
    match r.tokens with
    | .value :: ts =>
      let (v, r) ← optional [.flowEntry, close] (ofTokens prefixes nesting fuel false false)
        (r.at ts)
      .ok ((k, v), r)
    | _ => .ok ((k, empty), r)

/-- Items between brackets; a pair among them is a mapping of its own. -/
def flowItems (prefixes : List (String × String)) (nesting : Option Nat) (fuel : Nat)
    (first : Bool) (r : Rest) : Except Fault (List Node × Rest) :=
  match fuel with
  | 0 => .error .malformed
  | fuel + 1 =>
    match r.tokens, separated first r.tokens with
    | .flowSequenceEnd :: ts, _ => .ok ([], r.at ts)
    | _, .error f => .error f
    | _, .ok (.flowSequenceEnd :: ts) => .ok ([], r.at ts)
    | _, .ok (.key :: ts) => do
      let inner ← enter nesting
      let (e, r) ← flowPair prefixes inner fuel .flowSequenceEnd (r.at ts)
      let (ns, r) ← flowItems prefixes nesting fuel false r
      .ok (mapping .mapping [e] :: ns, r)
    | _, .ok ts => do
      let (n, r) ← ofTokens prefixes nesting fuel false false (r.at ts)
      let (ns, r) ← flowItems prefixes nesting fuel false r
      .ok (n :: ns, r)

def flowEntries (prefixes : List (String × String)) (nesting : Option Nat) (fuel : Nat)
    (first : Bool) (r : Rest) : Except Fault (List (Node × Node) × Rest) :=
  match fuel with
  | 0 => .error .malformed
  | fuel + 1 =>
    match r.tokens, separated first r.tokens with
    | .flowMappingEnd :: ts, _ => .ok ([], r.at ts)
    | _, .error f => .error f
    | _, .ok (.flowMappingEnd :: ts) => .ok ([], r.at ts)
    | _, .ok (.key :: ts) => do
      let (e, r) ← flowPair prefixes nesting fuel .flowMappingEnd (r.at ts)
      let (es, r) ← flowEntries prefixes nesting fuel false r
      .ok (e :: es, r)
    | _, .ok ts => do
      let (n, r) ← ofTokens prefixes nesting fuel false false (r.at ts)
      let (es, r) ← flowEntries prefixes nesting fuel false r
      .ok ((n, empty) :: es, r)

end

end Node

end NamespacePlan.Yaml
