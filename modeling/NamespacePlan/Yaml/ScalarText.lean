import NamespacePlan.Text.Hex
import NamespacePlan.Yaml.Cursor
import NamespacePlan.Yaml.Token

/-!
The text of a scalar as it stands in a document: plain, in quotes, or as an indented block. Lines are
joined by the rule that a single line end reads as a space and further ones as themselves.
-/

namespace NamespacePlan.Yaml

namespace ScalarText

/-- What a line end and the empty lines behind it read as. -/
def joinLines (first : Char) (more : List Char) : List Char :=
  if first ≠ '\n' then first :: more
  else if more.isEmpty then [' ']
  else more

/-! Plain scalars. -/

/-- The character ends a run of a plain scalar. Inside brackets more characters do. -/
def endsRun (flow : Bool) (c : Char) (rest : List Char) : Bool :=
  Style.isBlankOrBreak c ||
    (c == ':' &&
      (Style.blankAhead rest || (flow && rest.head?.any [',', '[', ']', '\x7b', '\x7d'].contains))) ||
    (flow && [',', '?', '[', ']', '\x7b', '\x7d'].contains c)

def run (flow : Bool) : List Char → List Char
  | [] => []
  | c :: rest => if endsRun flow c rest then [] else c :: run flow rest

/-- Empty lines and indentation behind a line end, up to a mark between documents, which ends the
scalar. -/
def plainBreaks : Nat → Cursor → List Char → Option (List Char) × Cursor
  | 0, c, breaks => (some breaks, c)
  | fuel + 1, c, breaks =>
    if c.sees ' ' then plainBreaks fuel c.step breaks
    else
      match c.lineBreak with
      | (some b, next) =>
        if next.atMark then (none, next) else plainBreaks fuel next (breaks ++ [b])
      | (none, _) => (some breaks, c)

/-- The blanks behind a run: what they read as, the place behind them, and whether a line ended. -/
def plainBlanks (c : Cursor) : List Char × Cursor × Bool :=
  let spaces := c.rest.takeWhile (· == ' ')
  let c := c.skip spaces.length
  match c.lineBreak with
  | (none, _) => (spaces, c, false)
  | (some b, next) =>
    if next.atMark then ([], next, true)
    else
      match plainBreaks next.rest.length next [] with
      | (some breaks, next) => (joinLines b breaks, next, true)
      | (none, next) => ([], next, true)

/-- A plain scalar: its text, the place behind it, and whether a line ended behind its last run. -/
def plain (flow : Bool) (indent : Int) : Nat → Cursor → List Char × Cursor × Bool
  | 0, c => ([], c, false)
  | fuel + 1, c =>
    if c.sees '#' then ([], c, false)
    else
      let word := run flow c.rest
      if word.isEmpty then ([], c, false)
      else
        let (blanks, next, ended) := plainBlanks (c.skip word.length)
        if blanks.isEmpty || next.sees '#' || (!flow && decide ((next.column : Int) < indent)) then
          (word, next, ended)
        else
          let follow := run flow next.rest
          if follow.isEmpty then (word, next, ended)
          else
            let (more, last, ended) := plain flow indent fuel next
            (word ++ blanks ++ more, last, ended)

/-! Quoted scalars. A character that is half of a surrogate pair is `none`. -/

def shortEscape? (c : Char) : Option Char :=
  [('0', '\x00'), ('a', '\x07'), ('b', '\x08'), ('t', '\t'), ('\t', '\t'), ('n', '\n'),
   ('v', '\x0b'), ('f', '\x0c'), ('r', '\x0d'), ('e', '\x1b'), (' ', ' '), ('"', '"'),
   ('\\', '\\'), ('/', '/'), ('N', '\u0085'), ('_', '\u00a0'), ('L', '\u2028'),
   ('P', '\u2029')].lookup c

def escapeWidth? (c : Char) : Option Nat := [('x', 2), ('u', 4), ('U', 8)].lookup c

/-- The character with a code; a code beyond all characters has no value. -/
def ofCode (n : Nat) : Except Fault (Option Char) :=
  if n ≥ 0x110000 then .error (.stray (.noCharacter n))
  else if 0xD800 ≤ n ∧ n ≤ 0xDFFF then .ok none
  else .ok (some (Char.ofNat n))

/-- Blanks and empty lines behind a line end. A mark between documents may not stand there. -/
def quotedBreaks : Nat → Cursor → List Char → Except Fault (List Char × Cursor)
  | 0, c, breaks => .ok (breaks, c)
  | fuel + 1, c, breaks =>
    if c.atMark then .error .malformed
    else
      match (c.skipWhile Moment.isBlank).lineBreak with
      | (some b, next) => quotedBreaks fuel next (breaks ++ [b])
      | (none, next) => .ok (breaks, next)

/-- The blanks at a place between quotes: kept inside a line, joined around line ends. -/
def quotedBlanks (c : Cursor) : Except Fault (List Char × Cursor) :=
  let blanks := c.rest.takeWhile Moment.isBlank
  let c := c.skip blanks.length
  match c.lineBreak with
  | (some b, next) => do
    let (breaks, next) ← quotedBreaks (next.rest.length + 1) next []
    .ok (joinLines b breaks, next)
  | (none, _) => if c.rest.isEmpty then .error .malformed else .ok (blanks, c)

def escaped (c : Cursor) : Except Fault (List (Option Char) × Cursor) :=
  match c.rest with
  | [] => .error .malformed
  | ch :: rest =>
    match shortEscape? ch with
    | some e => .ok ([some e], c.step)
    | none =>
      match escapeWidth? ch with
      | some width =>
        let digits := rest.take width
        match if digits.length = width then Text.hexNumber? digits else none with
        | none => .error .malformed
        | some n => do
          let e ← ofCode n
          .ok ([e], c.step.skip width)
      | none =>
        match c.lineBreak with
        | (some _, next) => do
          let (breaks, next) ← quotedBreaks (next.rest.length + 1) next []
          .ok (breaks.map some, next)
        | (none, _) => .error .malformed

def quoted (double : Bool) : Nat → Cursor → Except Fault (List (Option Char) × Cursor)
  | 0, _ => .error .malformed
  | fuel + 1, c =>
    match c.rest with
    | [] => .error .malformed
    | ch :: rest =>
      if ch = '\'' ∧ !double then
        if rest.head? = some '\'' then push [some '\''] (quoted double fuel (c.skip 2))
        else .ok ([], c.step)
      else if ch = '"' ∧ double then .ok ([], c.step)
      else if ch = '\\' ∧ double then do
        let (e, next) ← escaped c.step
        push e (quoted double fuel next)
      else if Style.isBlankOrBreak ch then do
        let (blanks, next) ← quotedBlanks c
        push (blanks.map some) (quoted double fuel next)
      else push [some ch] (quoted double fuel c.step)
where
  push (cs : List (Option Char)) (s : Except Fault (List (Option Char) × Cursor)) : Except Fault (List (Option Char) × Cursor) :=
    s.map fun r => (cs ++ r.1, r.2)

/-! Block scalars. -/

/-- What happens to the line ends behind the last line. -/
inductive Chomping where
  | strip
  | clip
  | keep
  deriving DecidableEq, Repr

/-- The header of a block scalar: a chomping sign and an indentation digit, in either order. -/
def blockHeader (c : Cursor) : Except Fault ((Chomping × Option Nat) × Cursor) := do
  let sign := fun (c : Cursor) =>
    if c.sees '+' then (Chomping.keep, c.step)
    else if c.sees '-' then (Chomping.strip, c.step)
    else (Chomping.clip, c)
  let digit := fun (c : Cursor) =>
    match c.rest with
    | ch :: _ => if Text.isDigit ch then (some (Text.natOf [ch]), c.step) else (none, c)
    | [] => (none, c)
  let (chomping, afterSign) := sign c
  let (increment, afterDigit) := digit afterSign
  let (chomping, c) := if chomping = .clip then sign afterDigit else (chomping, afterDigit)
  if increment = some 0 || !c.beforeSpace then .error .malformed
  else .ok ((chomping, increment), c)

def ignoredLine (c : Cursor) : Except Fault Cursor :=
  let c := c.skipWhile (· == ' ')
  let c := if c.sees '#' then c.skipWhile (!Style.isBreak ·) else c
  if c.beforeBreak then .ok c.lineBreak.2 else .error .malformed

/-- The empty lines in front of the text, with the greatest indentation met on the way. -/
def blockIndentation : Nat → Cursor → List Char → Nat → List Char × Nat × Cursor
  | 0, c, breaks, most => (breaks, most, c)
  | fuel + 1, c, breaks, most =>
    if c.sees ' ' then blockIndentation fuel c.step breaks (max most c.step.column)
    else
      match c.lineBreak with
      | (some b, next) => blockIndentation fuel next (breaks ++ [b]) most
      | (none, _) => (breaks, most, c)

def skipIndent (indent : Nat) (c : Cursor) : Cursor :=
  c.skip (min (indent - c.column) (c.rest.takeWhile (· == ' ')).length)

def blockBreaks (indent : Nat) : Nat → Cursor → List Char → List Char × Cursor
  | 0, c, breaks => (breaks, c)
  | fuel + 1, c, breaks =>
    match (skipIndent indent c).lineBreak with
    | (some b, next) => blockBreaks indent fuel next (breaks ++ [b])
    | (none, next) => (breaks, next)

/-- The lines of a block, up to the first one with less indentation: the text, the last line end and
the empty lines behind it. -/
def blockLines (folded : Bool) (indent : Nat) :
    Nat → Cursor → List Char → List Char × List Char × List Char × Cursor
  | 0, c, breaks => ([], [], breaks, c)
  | fuel + 1, c, breaks =>
    if c.column ≠ indent || c.rest.isEmpty then ([], [], breaks, c)
    else
      let startsBlank := c.seesAny Moment.isBlank
      let line := c.rest.takeWhile (!Style.isBreak ·)
      let (ending, next) := (c.skip line.length).lineBreak
      let (more, next) := blockBreaks indent (next.rest.length + 1) next []
      if next.column = indent && !next.rest.isEmpty then
        let join :=
          if folded && ending == some '\n' && !startsBlank &&
              !next.seesAny Moment.isBlank then
            if more.isEmpty then [' '] else []
          else ending.toList
        let (tail, last, trailing, final) := blockLines folded indent fuel next more
        (breaks ++ line ++ join ++ tail, last, trailing, final)
      else (breaks ++ line, ending.toList, more, next)

def block (folded : Bool) (around : Int) (c : Cursor) : Except Fault (List Char × Cursor) := do
  let ((chomping, increment), c) ← blockHeader c
  let c ← ignoredLine c
  let least := (max 1 (around + 1)).toNat
  let (breaks, indent, c) := match increment with
    | none =>
      let (breaks, most, c) := blockIndentation c.rest.length c [] 0
      (breaks, max least most, c)
    | some n =>
      let indent := least + n - 1
      let (breaks, c) := blockBreaks indent (c.rest.length + 1) c []
      (breaks, indent, c)
  let (text, last, trailing, c) := blockLines folded indent (c.rest.length + 1) c breaks
  let tail := match chomping with
    | .strip => []
    | .clip => last
    | .keep => last ++ trailing
  .ok (text ++ tail, c)

end ScalarText

end NamespacePlan.Yaml
