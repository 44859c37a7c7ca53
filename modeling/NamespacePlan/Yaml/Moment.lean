import NamespacePlan.Text.Digit

/-!
Dates and times as they are written: the numbers in their places, not yet checked against a calendar.
-/

namespace NamespacePlan.Yaml

open Text

/-- A distance from universal time: universal time itself, or hours and minutes in one direction. -/
inductive Zone where
  | universal
  | distance (west : Bool) (hours minutes : Nat)
  deriving DecidableEq, Repr

def Zone.minutes : Zone → Int
  | .universal => 0
  | .distance west hours minutes =>
    let n := hours * 60 + minutes
    if west then -(n : Int) else n

structure Clock where
  hour : Nat
  minute : Nat
  second : Nat
  fraction : List Char
  zone : Option Zone
  deriving DecidableEq, Repr

structure Moment where
  year : Nat
  month : Nat
  day : Nat
  time : Option Clock
  deriving DecidableEq, Repr

namespace Moment

def isBlank (c : Char) : Bool := c == ' ' || c == '\t'

/-- A number of at least `least` and at most `most` digits, and the rest behind it. -/
def number? (least most : Nat) (cs : List Char) : Option (Nat × List Char) :=
  let ds := (cs.take most).takeWhile isDigit
  if ds.length < least then none else some (natOf ds, cs.drop ds.length)

def behind? (c : Char) : List Char → Option (List Char)
  | d :: cs => if d = c then some cs else none
  | [] => none

def zone? (cs : List Char) : Option Zone :=
  match cs with
  | ['Z'] => some .universal
  | c :: rest =>
    if c = '+' ∨ c = '-' then do
      let (hours, rest) ← number? 1 2 rest
      if rest.isEmpty then pure (.distance (c == '-') hours 0)
      else
        let (minutes, rest) ← behind? ':' rest >>= number? 2 2
        if rest.isEmpty then pure (.distance (c == '-') hours minutes) else none
    else none
  | [] => none

def clock? (cs : List Char) : Option Clock := do
  let (hour, cs) ← number? 1 2 cs
  let (minute, cs) ← behind? ':' cs >>= number? 2 2
  let (second, cs) ← behind? ':' cs >>= number? 2 2
  let (fraction, cs) := match cs with
    | '.' :: rest => (rest.takeWhile isDigit, rest.dropWhile isDigit)
    | rest => ([], rest)
  if cs.isEmpty then pure ⟨hour, minute, second, fraction, none⟩
  else (zone? (cs.dropWhile isBlank)).map fun z => ⟨hour, minute, second, fraction, some z⟩

/-- The rest behind what separates a date from a time: a letter T or blanks. -/
def behindSeparator? : List Char → Option (List Char)
  | [] => none
  | c :: cs =>
    if c = 'T' ∨ c = 't' then some cs
    else if isBlank c then some (cs.dropWhile isBlank)
    else none

def read? (cs : List Char) : Option Moment := do
  let (year, cs) ← number? 4 4 cs
  let (month, cs) ← behind? '-' cs >>= number? 1 2
  let (day, cs) ← behind? '-' cs >>= number? 1 2
  if cs.isEmpty then pure ⟨year, month, day, none⟩
  else (behindSeparator? cs >>= clock?).map fun t => ⟨year, month, day, some t⟩

end Moment

end NamespacePlan.Yaml
