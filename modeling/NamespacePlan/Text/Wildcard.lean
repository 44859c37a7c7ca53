/-!
Patterns for names: a star stands for any run of characters, a question mark for one character, and
brackets for one character out of a set, given by single characters and by ranges.
-/

namespace NamespacePlan.Text.Wildcard

inductive Part where
  | run
  | one
  | char (c : Char)
  | oneOf (outside : Bool) (ranges : List (Char × Char))
  deriving DecidableEq, Repr

def isSign (c : Char) : Bool := c == '*' || c == '?' || c == '['

/-! Sets in brackets. -/

/-- The inside of brackets, behind the opening one, and the rest. A closing bracket that comes first
belongs to the set. -/
def inside? (cs : List Char) : Option (List Char × List Char) :=
  let (bang, cs) := match cs with
    | '!' :: rest => (['!'], rest)
    | rest => ([], rest)
  let (first, cs) := match cs with
    | ']' :: rest => ([']'], rest)
    | rest => ([], rest)
  let body := cs.takeWhile (· != ']')
  if body.length < cs.length then some (bang ++ first ++ body, cs.drop (body.length + 1)) else none

/-- Cuts a set at the hyphens that make ranges: each with a character in front of it that is no end of
a range. The next `wait` characters are in the same piece. -/
def cut (wait : Nat) (piece : List Char) : List Char → List (List Char)
  | [] => if piece.isEmpty then [] else [piece]
  | c :: cs =>
    if c = '-' ∧ wait = 0 then
      if cs.isEmpty then [piece ++ ['-']] else piece :: cut 2 [] cs
    else cut (wait - 1) (piece ++ [c]) cs

def dropEmpty : List (List Char) → List (List Char)
  | [] => []
  | p :: ps =>
    match dropEmpty ps with
    | [] => [p]
    | q :: qs =>
      match p.getLast?, q.head? with
      | some a, some b => if b < a then (p.dropLast ++ q.drop 1) :: qs else p :: q :: qs
      | _, _ => p :: q :: qs

def joined : List (List Char) → List (Option Char)
  | [] => []
  | [p] => p.map some
  | p :: ps => p.map some ++ none :: joined ps

/-- The ranges of a set; a single character is a range by itself. -/
def rangesOf : List (Option Char) → List (Char × Char)
  | some a :: none :: some b :: rest => (a, b) :: rangesOf rest
  | some a :: rest => (a, a) :: rangesOf rest
  | none :: rest => ('-', '-') :: rangesOf rest
  | [] => []

def setOf (inside : List Char) : Part :=
  let wait := if inside.head? = some '!' then 2 else 1
  match joined (dropEmpty (cut wait [] inside)) with
  | some '!' :: rest => .oneOf true (rangesOf rest)
  | rest => .oneOf false (rangesOf rest)

/-! Patterns. -/

/-- The parts of a pattern. An opening bracket that is never closed stands for itself. The fuel is the
length of the pattern. -/
def partsOf : Nat → List Char → List Part
  | _, [] => []
  | 0, _ :: _ => []
  | fuel + 1, c :: cs =>
    if c = '*' then .run :: partsOf fuel cs
    else if c = '?' then .one :: partsOf fuel cs
    else if c = '[' then
      match inside? cs with
      | some (inside, rest) => setOf inside :: partsOf fuel rest
      | none => .char '[' :: partsOf fuel cs
    else .char c :: partsOf fuel cs

def someEnd (p : List Char → Bool) : List Char → Bool
  | [] => p []
  | c :: cs => p (c :: cs) || someEnd p cs

def Part.fits (c : Char) : Part → Bool
  | run => false
  | one => true
  | char d => c == d
  | oneOf outside ranges => (ranges.any fun r => r.1 ≤ c && c ≤ r.2) != outside

def fits : List Part → List Char → Bool
  | [], cs => cs.isEmpty
  | .run :: ps, cs => someEnd (fits ps) cs
  | p :: ps, cs =>
    match cs with
    | [] => false
    | c :: rest => p.fits c && fits ps rest

def matchesName (pattern name : String) : Bool :=
  fits (partsOf pattern.length pattern.toList) name.toList

end NamespacePlan.Text.Wildcard
