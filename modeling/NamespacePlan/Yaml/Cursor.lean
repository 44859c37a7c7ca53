import NamespacePlan.Yaml.Style

/-!
A place in a text: what is left of it, and how far it lies from the beginning, in characters, in lines
and in columns. Line ends are those of `Style.isBreak`; a byte order mark takes no column.
-/

namespace NamespacePlan.Yaml

structure Cursor where
  rest : List Char
  index : Nat := 0
  line : Nat := 0
  column : Nat := 0
  deriving DecidableEq, Repr

namespace Cursor

def step (c : Cursor) : Cursor :=
  match c.rest with
  | [] => c
  | ch :: rest =>
    if Style.isBreak ch then ⟨rest, c.index + 1, c.line + 1, 0⟩
    else ⟨rest, c.index + 1, c.line, if ch = '\ufeff' then c.column else c.column + 1⟩

def skip : Nat → Cursor → Cursor
  | 0, c => c
  | n + 1, c => skip n c.step

def skipWhile (p : Char → Bool) (c : Cursor) : Cursor := c.skip (c.rest.takeWhile p).length

def peek (c : Cursor) : Option Char := c.rest.head?

def sees (c : Cursor) (ch : Char) : Bool := c.rest.head? == some ch

def seesAny (c : Cursor) (p : Char → Bool) : Bool := c.rest.head?.any p

def beforeBlank (c : Cursor) : Bool := Style.blankAhead c.rest

def beforeSpace (c : Cursor) : Bool := c.rest.head?.all fun ch => ch == ' ' || Style.isBreak ch

def beforeBreak (c : Cursor) : Bool := c.rest.head?.all Style.isBreak

def atMark (c : Cursor) : Bool := Style.startsAsMark c.rest && Style.blankAhead (c.rest.drop 3)

end Cursor

/-- How a line end reads: the separators of lines and paragraphs as they are, the others as a line
feed. -/
def lineEnd (ch : Char) : Char := if ch = '\u2028' ∨ ch = '\u2029' then ch else '\n'

def Cursor.lineBreak (c : Cursor) : Option Char × Cursor :=
  match c.rest with
  | ch :: _ => if Style.isBreak ch then (some (lineEnd ch), c.step) else (none, c)
  | [] => (none, c)

end NamespacePlan.Yaml
