import NamespacePlan.Yaml.Node

/-!
A text with at most one document: directives in front of it, marks around it, and its root node.
-/

namespace NamespacePlan.Yaml.Document

def commonPrefixes : List (String × String) := [("!", "!"), ("!!", Tag.standard)]

/-- The handles that directives define, and the tokens behind the directives. A version stands at most
once and is `1.x`; a handle is defined at most once. -/
def directives (versioned : Bool) (prefixes : List (String × String)) :
    List Token → Except Fault (List (String × String) × List Token)
  | .version major :: ts =>
    if versioned || major != 1 then .error .malformed else directives true prefixes ts
  | .tagPrefix h u :: ts =>
    if (prefixes.lookup h).isSome then .error .malformed
    else directives versioned (prefixes ++ [(h, u)]) ts
  | .otherDirective :: ts => directives versioned prefixes ts
  | ts => .ok (prefixes ++ commonPrefixes, ts)

def isOutside : Token → Bool
  | .version _ | .tagPrefix _ _ | .otherDirective | .documentStart | .documentEnd | .streamEnd => true
  | _ => false

/-- The root node among the tokens. Each token is the first of a node, of an item and of a pair at
most, so three units of fuel for each are enough. -/
def root (nesting : Option Nat) (prefixes : List (String × String)) (ts : List Token) :
    Except Fault (Node × List Token) :=
  (Node.ofTokens prefixes nesting (3 * ts.length + 3) true false { tokens := ts }).map
    fun r => (r.1, r.2.tokens)

def marked (nesting : Option Nat) (ts : List Token) : Except Fault (Node × List Token) :=
  match directives false [] ts with
  | .error f => .error f
  | .ok (prefixes, .documentStart :: ts) =>
    if ts.head?.any isOutside then .ok (Node.empty, ts) else root nesting prefixes ts
  | .ok (_, ts) => Node.unexpected ts

def ending (n : Node) (ts : List Token) : Except Fault Node :=
  match ts.dropWhile (· == .documentEnd) with
  | .streamEnd :: _ => .ok n
  | ts => Node.unexpected ts

/-- The document that some tokens are, in which collections nest no deeper than they may. -/
def ofTokens (nesting : Option Nat) (ts : List Token) : Except Fault (Option Node) :=
  if ts.head? = some .streamEnd then .ok none
  else
    let begun :=
      if ts.head?.any fun t => isOutside t && t != .documentEnd then marked nesting ts
      else root nesting commonPrefixes ts
    match begun with
    | .error f => .error f
    | .ok (n, ts) => (ending n ts).map some

end NamespacePlan.Yaml.Document
