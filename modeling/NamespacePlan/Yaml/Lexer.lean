import NamespacePlan.Yaml.Property

/-!
Cutting a text into tokens. A key is known to be one only when the colon behind it is met, so the
place of the last thing that may be a key is remembered and the marks are put in front of it later.
-/

namespace NamespacePlan.Yaml

/-- Something that may turn out to be a key. -/
structure PossibleKey where
  /-- It begins a line of a block mapping, so it must be a key. -/
  required : Bool
  index : Nat
  line : Nat
  column : Nat
  count : Nat
  deriving DecidableEq, Repr

structure Lexer where
  cursor : Cursor
  /-- The columns of the open block collections, innermost first. -/
  indents : List Nat := []
  keyAllowed : Bool := true
  /-- What may be a key in the innermost collection. -/
  key : Option PossibleKey := none
  /-- What may be a key in each collection around the open brackets, innermost first. -/
  outer : List (Option PossibleKey) := []
  /-- The tokens, last first. -/
  cut : List Token := []
  deriving DecidableEq, Repr

namespace Lexer

def inFlow (l : Lexer) : Bool := !l.outer.isEmpty

def indent (l : Lexer) : Int :=
  match l.indents with
  | [] => -1
  | i :: _ => i

def emit (l : Lexer) (t : Token) (next : Cursor) : Lexer :=
  { l with cut := t :: l.cut, cursor := next }

def unwind (column : Int) (l : Lexer) : Lexer :=
  if l.inFlow then l
  else
    let closed := l.indents.takeWhile fun (i : Nat) => decide (column < (i : Int))
    { l with indents := l.indents.drop closed.length
             cut := List.replicate closed.length .blockEnd ++ l.cut }

/-- Opens a block collection at a column, unless that is the column of the innermost one. -/
def openBlock (start : Token) (column : Nat) (l : Lexer) : Lexer :=
  if l.indent < (column : Int) then
    { l with indents := column :: l.indents, cut := start :: l.cut }
  else l

def dropKey (l : Lexer) : Except Fault Lexer :=
  if l.key.any (·.required) then .error .malformed else .ok { l with key := none }

def saveKey (l : Lexer) : Except Fault Lexer :=
  if l.keyAllowed then
    l.dropKey.map fun l =>
      let c := l.cursor
      { l with key := some ⟨!l.inFlow && l.indent == c.column, c.index, c.line, c.column,
                            l.cut.length⟩ }
  else .ok l

/-- The longest way between the beginning of a key and its colon. -/
def keyReach : Nat := 1024

/-- The colon of a possible key can no longer follow. -/
def isStale (c : Cursor) (k : PossibleKey) : Bool :=
  k.line != c.line || keyReach < c.index - k.index

def dropStale (l : Lexer) : Except Fault Lexer :=
  let stale := fun (k : Option PossibleKey) => k.any (isStale l.cursor)
  if (l.key :: l.outer).any fun k => stale k && k.any (·.required) then .error .malformed
  else
    let keep := fun k => if stale k then none else k
    .ok { l with key := keep l.key, outer := l.outer.map keep }

/-- Goes to the next token, over blanks, comments and line ends. A line end allows a key again. -/
def skipBlanks : Nat → Lexer → Lexer
  | 0, l => l
  | fuel + 1, l =>
    let c := l.cursor.skipWhile (· == ' ')
    let c := if c.sees '#' then c.skipWhile (!Style.isBreak ·) else c
    match c.lineBreak with
    | (some _, next) =>
      skipBlanks fuel { l with cursor := next, keyAllowed := l.keyAllowed || !l.inFlow }
    | (none, _) => { l with cursor := c }

def endBlocks (l : Lexer) : Except Fault Lexer :=
  (l.unwind (-1)).dropKey.map fun l => { l with keyAllowed := false }

def documentMark (t : Token) (l : Lexer) : Except Fault Lexer :=
  l.endBlocks.map fun l => l.emit t (l.cursor.skip 3)

def openFlow (t : Token) (l : Lexer) : Except Fault Lexer :=
  l.saveKey.map fun l =>
    { l.emit t l.cursor.step with outer := l.key :: l.outer, key := none, keyAllowed := true }

def closeFlow (t : Token) (l : Lexer) : Except Fault Lexer :=
  match l.outer with
  | [] => .error .malformed
  | k :: outer =>
    l.dropKey.map fun l =>
      { l.emit t l.cursor.step with outer := outer, key := k, keyAllowed := false }

def blockEntry (l : Lexer) : Except Fault Lexer :=
  if !l.inFlow && !l.keyAllowed then .error .malformed
  else
    let l := if l.inFlow then l else l.openBlock .blockSequenceStart l.cursor.column
    l.dropKey.map fun l => { l.emit .blockEntry l.cursor.step with keyAllowed := true }

def keyMark (l : Lexer) : Except Fault Lexer :=
  if !l.inFlow && !l.keyAllowed then .error .malformed
  else
    let l := if l.inFlow then l else l.openBlock .blockMappingStart l.cursor.column
    l.dropKey.map fun l => { l.emit .key l.cursor.step with keyAllowed := !l.inFlow }

/-- Puts the mark of a key in front of it, and the beginning of the mapping if it is the first. -/
def insertKey (k : PossibleKey) (l : Lexer) : Lexer :=
  let later := l.cut.take (l.cut.length - k.count)
  let l := { l with cut := l.cut.drop (l.cut.length - k.count) }
  let l := if l.inFlow then l else l.openBlock .blockMappingStart k.column
  { l with cut := later ++ .key :: l.cut }

def valueMark (l : Lexer) : Except Fault Lexer :=
  match l.key with
  | some k =>
    let l := { l.insertKey k with key := none, keyAllowed := false }
    .ok (l.emit .value l.cursor.step)
  | none =>
    if !l.inFlow && !l.keyAllowed then .error .malformed
    else
      let l := if l.inFlow then l else l.openBlock .blockMappingStart l.cursor.column
      .ok { l.emit .value l.cursor.step with keyAllowed := !l.inFlow }

def keyLike (read : Cursor → Except Fault (Token × Cursor)) (l : Lexer) : Except Fault Lexer := do
  let l ← l.saveKey
  let (t, next) ← read l.cursor
  .ok { l.emit t next with keyAllowed := false }

def plain (l : Lexer) : Except Fault Lexer := do
  let l ← l.saveKey
  let (text, next, ended) :=
    ScalarText.plain l.inFlow (l.indent + 1) l.cursor.rest.length l.cursor
  .ok { l.emit (.scalar (some text) true) next with keyAllowed := ended }

def quoted (double : Bool) (c : Cursor) : Except Fault (Token × Cursor) :=
  (ScalarText.quoted double c.rest.length c.step).map fun r => (.scalar (r.1.mapM id) false, r.2)

def block (folded : Bool) (l : Lexer) : Except Fault Lexer := do
  let l ← l.dropKey
  let (text, next) ← ScalarText.block folded l.indent l.cursor.step
  .ok { l.emit (.scalar (some text) false) next with keyAllowed := true }

def beginsPlain (flow : Bool) (ch : Char) (rest : List Char) : Bool :=
  let blank := Style.blankAhead rest
  if ch = '-' then !blank
  else if ch = '?' ∨ ch = ':' then !blank && !flow
  else
    !(Style.isBlankOrBreak ch ||
      [',', '[', ']', '\x7b', '\x7d', '#', '&', '*', '!', '|', '>', '\'', '"', '%', '@',
        '\x60'].contains ch)

def dispatch (ch : Char) (rest : List Char) (l : Lexer) : Except Fault Lexer :=
  let blank := Style.blankAhead rest
  let first := l.cursor.column == 0
  if first && ch == '%' then do
    let l ← l.endBlocks
    let (t, next) ← Property.directive l.cursor
    .ok (l.emit t next)
  else if first && ch == '-' && l.cursor.atMark then l.documentMark .documentStart
  else if first && ch == '.' && l.cursor.atMark then l.documentMark .documentEnd
  else if ch = '[' then l.openFlow .flowSequenceStart
  else if ch = '\x7b' then l.openFlow .flowMappingStart
  else if ch = ']' then l.closeFlow .flowSequenceEnd
  else if ch = '\x7d' then l.closeFlow .flowMappingEnd
  else if ch = ',' then
    l.dropKey.map fun l => { l.emit .flowEntry l.cursor.step with keyAllowed := true }
  else if ch = '-' ∧ blank then l.blockEntry
  else if ch = '?' ∧ (l.inFlow || blank) then l.keyMark
  else if ch = ':' ∧ (l.inFlow || blank) then l.valueMark
  else if ch = '*' then
    l.keyLike fun c => (Property.anchorName c.step).map fun r => (.alias r.1, r.2)
  else if ch = '&' then
    l.keyLike fun c => (Property.anchorName c.step).map fun r => (.anchor r.1, r.2)
  else if ch = '!' then l.keyLike Property.tag
  else if ch = '|' ∧ !l.inFlow then l.block false
  else if ch = '>' ∧ !l.inFlow then l.block true
  else if ch = '\'' then l.keyLike (quoted false)
  else if ch = '"' then l.keyLike (quoted true)
  else if beginsPlain l.inFlow ch rest then l.plain
  else .error .malformed

def next (l : Lexer) : Except Fault Lexer := do
  let start := if l.cursor.index = 0 ∧ l.cursor.sees '\ufeff' then l.cursor.step else l.cursor
  let l := skipBlanks (start.rest.length + 1) { l with cursor := start }
  let l ← l.dropStale
  let l := l.unwind l.cursor.column
  match l.cursor.rest with
  | [] => (l.unwind (-1)).dropKey.map fun l => l.emit .streamEnd l.cursor
  | ch :: rest => dispatch ch rest l

/-- The tokens in front of everything that may still turn out to be a key. -/
def settled (l : Lexer) : List Token :=
  let keys := (l.key :: l.outer).filterMap fun k => k.filter fun k => !isStale l.cursor k
  l.cut.drop (l.cut.length - (keys.map PossibleKey.count).foldl min l.cut.length)

/-- All tokens. Every step takes at least one character, so the length of the text bounds them. What is
wrong with a token shows before those that are not settled yet are handed on. -/
def run : Nat → Lexer → List Token
  | 0, l => (.stop .malformed :: l.cut).reverse
  | fuel + 1, l =>
    match l.next with
    | .error f => (.stop f :: l.settled).reverse
    | .ok l => if l.cut.head? = some .streamEnd then l.cut.reverse else run fuel l

end Lexer

/-- The tokens of a text. The last one is the end, or tells why there is none. -/
def Token.ofText (cs : List Char) : List Token :=
  Lexer.run (cs.length + 2) { cursor := { rest := cs } }

end NamespacePlan.Yaml
