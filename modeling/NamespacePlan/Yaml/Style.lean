import NamespacePlan.Yaml.ImplicitType

/-!
How a text is written: plain where its looks do not mislead, in single quotes where nothing has to be
escaped, and in double quotes otherwise.
-/

namespace NamespacePlan.Yaml

inductive Style where
  | plain
  | single
  | double
  deriving DecidableEq, Repr

namespace Style

def isBreak (c : Char) : Bool := c == '\n' || c == '\u0085' || c == '\u2028' || c == '\u2029'

/-- A blank, a line end or the end mark: what may stand behind an indicator. -/
def isBlankOrBreak (c : Char) : Bool :=
  c == '\x00' || c == ' ' || c == '\t' || c == '\x0d' || isBreak c

def isShown (c : Char) : Bool := c == '\n' || (' ' ≤ c && c ≤ '~')

/-- The character, if there is one, is blank; so is the end of the text. -/
def blankAhead : List Char → Bool
  | [] => true
  | c :: _ => isBlankOrBreak c

def startsAsIndicator : List Char → Bool
  | [] => false
  | c :: cs =>
    ['#', ',', '[', ']', '\x7b', '\x7d', '&', '*', '!', '|', '>', '\'', '"', '%', '@',
      '\x60'].contains c ||
      ((c == '?' || c == ':' || c == '-') && blankAhead cs)

/-- A colon before a blank, or a number sign behind one, stands behind the first character. The flag
tells whether a blank stands before the text. -/
def holdsIndicator : Bool → List Char → Bool
  | _, [] => false
  | blank, c :: cs =>
    (c == ':' && blankAhead cs) || (c == '#' && blank) || holdsIndicator (isBlankOrBreak c) cs

def startsAsMark (cs : List Char) : Bool :=
  "---".toList.isPrefixOf cs || "...".toList.isPrefixOf cs

def hasLooseEnd (cs : List Char) : Bool :=
  let loose := fun (c : Option Char) => c.any fun c => c == ' ' || isBreak c
  loose cs.head? || loose cs.getLast?

/-- Nothing in the text would be taken for structure. -/
def isInert : List Char → Bool
  | [] => true
  | c :: cs =>
    !startsAsMark (c :: cs) && !startsAsIndicator (c :: cs) &&
      !holdsIndicator (isBlankOrBreak c) cs

def allowsPlain (cs : List Char) : Bool :=
  !cs.isEmpty && !cs.any isBreak && cs.all isShown && !hasLooseEnd cs && isInert cs

def mixesBlanks : List Char → Bool
  | a :: b :: cs =>
    (a == ' ' && isBreak b) || (isBreak a && b == ' ') || mixesBlanks (b :: cs)
  | _ => false

def allowsSingle (cs : List Char) : Bool := cs.all isShown && !mixesBlanks cs

/-- The style of a text; a key that shares its line with the value has no line end in it. -/
def of (key : Bool) (cs : List Char) : Style :=
  if ImplicitType.of cs = .text && allowsPlain cs then plain
  else if allowsSingle cs && !(key && cs.any isBreak) then single
  else double

end Style

end NamespacePlan.Yaml
