import NamespacePlan.Text.Hex
import NamespacePlan.Yaml.Style

/-!
The writing of one text in a given style. A long text is folded: where a line has grown past the best
width, a single space becomes a line end, or a line end is escaped.
-/

namespace NamespacePlan.Yaml

open Text

/-- Where a text stands: the indent of its further lines, and whether it may be folded at all. -/
structure Margin where
  indent : Nat
  folds : Bool
  deriving DecidableEq, Repr

namespace Scalar

def bestWidth : Nat := 80

def newLine (m : Margin) : List Char := '\n' :: List.replicate m.indent ' '

def mayFold (afterSpace : Bool) (c : Char) (rest : List Char) : Bool :=
  c == ' ' && !afterSpace && rest.head?.any (· != ' ')

def plain (m : Margin) : Nat → Bool → List Char → List Char
  | _, _, [] => []
  | col, afterSpace, c :: rest =>
    if m.folds && mayFold afterSpace c rest && decide (bestWidth < col) then
      newLine m ++ plain m m.indent true rest
    else c :: plain m (col + 1) (c == ' ') rest

/-- The inside of single quotes from a column on. A line end is written once more at the beginning of
each run of them. The first character is no place to fold. -/
def single (m : Margin) (first : Bool) : Nat → Char → List Char → List Char
  | _, _, [] => []
  | col, before, c :: rest =>
    if c = '\n' then
      let lead := if before = '\n' then [] else ['\n']
      let close := if rest.head? = some '\n' then [] else List.replicate m.indent ' '
      lead ++ '\n' :: close ++ single m false m.indent c rest
    else if c = '\'' then '\'' :: '\'' :: single m false (col + 2) c rest
    else if m.folds && !first && mayFold (before == ' ') c rest && decide (bestWidth < col) then
      newLine m ++ single m false m.indent c rest
    else c :: single m false (col + 1) c rest

def shortEscape? (c : Char) : Option Char :=
  [('\x00', '0'), ('\x07', 'a'), ('\x08', 'b'), ('\t', 't'), ('\n', 'n'), ('\x0b', 'v'),
   ('\x0c', 'f'), ('\x0d', 'r'), ('\x1b', 'e'), ('"', '"'), ('\\', '\\'), ('\u0085', 'N'),
   ('\u00a0', '_'), ('\u2028', 'L'), ('\u2029', 'P')].lookup c

def isEscaped (c : Char) : Bool := c == '"' || c == '\\' || !(' ' ≤ c && c ≤ '~')

def escape (c : Char) : List Char :=
  match shortEscape? c with
  | some e => ['\\', e]
  | none =>
    if c.toNat < 0x100 then '\\' :: 'x' :: hexDigits upperHexDigit 2 c.toNat
    else if c.toNat < 0x10000 then '\\' :: 'u' :: hexDigits upperHexDigit 4 c.toNat
    else '\\' :: 'U' :: hexDigits upperHexDigit 8 c.toNat

/-- An escaped line end; a space that follows it is escaped too. -/
def escapedLine (m : Margin) (rest : List Char) : List Char × Nat :=
  if rest.head? = some ' ' then ('\\' :: newLine m ++ ['\\'], m.indent + 1)
  else ('\\' :: newLine m, m.indent)

/-- The inside of double quotes from a column on. The line may end behind an escape, before a space,
and before the character behind one of those; never next to the quotes. -/
def double (m : Margin) (first afterFold : Bool) : Nat → List Char → List Char
  | _, [] => []
  | col, c :: rest =>
    let inner := m.folds && !first && !rest.isEmpty
    if isEscaped c then
      let e := escape c
      let col := col + e.length
      if inner && decide (bestWidth + 1 < col) then
        let (line, next) := escapedLine m rest
        e ++ line ++ double m false true next rest
      else e ++ double m false true col rest
    else if inner && (c == ' ' || afterFold) && decide (bestWidth < col) then
      let (line, next) := escapedLine m (c :: rest)
      line ++ c :: double m false false (next + 1) rest
    else c :: double m false false (col + 1) rest

def write (m : Margin) (style : Style) (col : Nat) (cs : List Char) : List Char :=
  match style with
  | .plain => plain m col false cs
  | .single => '\'' :: single m true (col + 1) '\x00' cs ++ ['\'']
  | .double => '"' :: double m true true (col + 1) cs ++ ['"']

end Scalar

end NamespacePlan.Yaml
