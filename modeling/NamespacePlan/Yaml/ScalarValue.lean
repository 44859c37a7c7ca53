import NamespacePlan.Data.Value
import NamespacePlan.Text.Base64
import NamespacePlan.Text.Blank
import NamespacePlan.Text.Numeric
import NamespacePlan.Text.Split
import NamespacePlan.Yaml.ImplicitType
import NamespacePlan.Yaml.Token

/-!
The value of a scalar of a given type. A scalar that was tagged need not look like its type, so each
reading can fail.
-/

namespace NamespacePlan.Yaml.ScalarValue

open Text

def stray {α : Type} (s : Stray) : Except Fault α := .error (.stray s)

def dropGaps (cs : List Char) : List Char := cs.filter (· != '_')

/-- The sign of a number and what follows it; no sign is plus. -/
def signed : List Char → Bool × List Char
  | '-' :: cs => (true, cs)
  | '+' :: cs => (false, cs)
  | cs => (false, cs)

/-! Whole numbers. -/

def digitValue? (c : Char) : Option Nat :=
  if 'a' ≤ c ∧ c ≤ 'z' then some (c.toNat - 87)
  else if 'A' ≤ c ∧ c ≤ 'Z' then some (c.toNat - 55)
  else decimalValue? c

/-- The number that digits write in a base; there is at least one digit. -/
def digits? (base : Nat) (cs : List Char) : Option Nat :=
  if cs.isEmpty then none
  else
    cs.foldlM (fun n c =>
      match digitValue? c with
      | some d => if d < base then some (n * base + d) else none
      | none => none) 0

def baseLetters (base : Nat) : List Char :=
  if base = 2 then ['b', 'B'] else if base = 8 then ['o', 'O'] else if base = 16 then ['x', 'X']
  else []

def dropBase (base : Nat) (cs : List Char) : List Char :=
  match cs with
  | '0' :: c :: rest => if (baseLetters base).contains c then rest else cs
  | _ => cs

def number (base : Nat) (cs : List Char) : Except Fault Int :=
  let (negative, ds) := signed (trim cs)
  if base = 10 ∧ Value.digitLimit < ds.length then stray (.tooLong ds.length)
  else
    match digits? base (dropBase base ds) with
    | none => stray (.notWhole base (String.ofList cs))
    | some n => .ok (if negative then -(n : Int) else n)

def sixties (cs : List Char) : Except Fault Int :=
  (splitAt ':' cs).foldlM (fun n part => (number 10 part).map (n * 60 + ·)) 0

def magnitude (cs : List Char) : Except Fault Int :=
  match cs with
  | [] => stray .emptyNumber
  | ['0'] => .ok 0
  | '0' :: 'b' :: ds => number 2 ds
  | '0' :: 'x' :: ds => number 16 ds
  | '0' :: _ => number 8 cs
  | _ => if cs.contains ':' then sixties cs else number 10 cs

def int (cs : List Char) : Except Fault Value :=
  let (negative, body) := signed (dropGaps cs)
  (magnitude body).map fun n => .int (if negative then -n else n)

/-! Floating-point numbers. -/

def digitValues (cs : List Char) : List Nat × List Char :=
  let ds := cs.takeWhile isDecimal
  (ds.filterMap decimalValue?, cs.drop ds.length)

def ofDigits (ds : List Nat) : Nat := ds.foldl (fun n d => 10 * n + d) 0

/-- A decimal exponent that is all of a text; nothing is zero. -/
def exponent? (cs : List Char) : Option Int :=
  match cs with
  | [] => some 0
  | c :: rest =>
    if c = 'e' then
      let (negative, body) := signed rest
      match digitValues body with
      | (ds, []) =>
        if ds.isEmpty then none
        else
          let n : Int := ofDigits ds
          some (if negative then -n else n)
      | _ => none
    else none

def pointed? (negative : Bool) (cs : List Char) : Option Binary64 :=
  let (whole, rest) := digitValues cs
  let (fraction, rest) := match rest with
    | '.' :: tail => digitValues tail
    | tail => ([], tail)
  if whole.isEmpty && fraction.isEmpty then none
  else
    (exponent? rest).map fun e =>
      Binary64.ofDecimal negative (ofDigits (whole ++ fraction)) (e - fraction.length)

def decimal (cs : List Char) : Except Fault Binary64 :=
  let (negative, body) := signed (trim cs)
  if body = "inf".toList ∨ body = "infinity".toList then .ok (.infinite negative)
  else if body = "nan".toList then .ok .nan
  else
    match pointed? negative body with
    | none => stray (.notDecimal (String.ofList cs))
    | some x => .ok x

/-- Adds a part to a sum, as often as its place counts; the place in front of it counts sixty times as
much. -/
def addPart (x : Binary64) (sum : Binary64 × Nat) : Except Fault (Binary64 × Nat) :=
  match x.scale? sum.2 with
  | some y => .ok (sum.1.add y, sum.2 * 60)
  | none => stray .tooLarge

def sumSixties (parts : List Binary64) : Except Fault Binary64 :=
  (parts.foldrM addPart (Binary64.ofInt 0, 1)).map Prod.fst

def floatMagnitude (cs : List Char) : Except Fault Binary64 :=
  if cs = ".inf".toList then .ok (.infinite false)
  else if cs = ".nan".toList then .ok .nan
  else if cs.contains ':' then (splitAt ':' cs).mapM decimal >>= sumSixties
  else decimal cs

def float (cs : List Char) : Except Fault Value :=
  match (dropGaps cs).map Char.toLower with
  | [] => stray .emptyNumber
  | lower =>
    let (negative, body) := signed lower
    (floatMagnitude body).map fun x => .float (if negative then x.neg else x)

/-! Truth values, bytes and dates. -/

def bool (cs : List Char) : Except Fault Value :=
  let word := String.ofList (cs.map Char.toLower)
  if ["yes", "true", "on"].contains word then .ok (.bool true)
  else if ["no", "false", "off"].contains word then .ok (.bool false)
  else stray (.noTruthValue word)

def binary (cs : List Char) : Except Fault Value :=
  if cs.all fun c => c.toNat < 128 then
    match Base64.decode cs with
    | some bytes => .ok (.bytes bytes)
    | none => .error .malformed
  else .error .malformed

def daysIn (year month : Nat) : Nat :=
  if month = 2 then
    if year % 4 = 0 ∧ (year % 100 ≠ 0 ∨ year % 400 = 0) then 29 else 28
  else if month = 4 ∨ month = 6 ∨ month = 9 ∨ month = 11 then 30
  else 31

def dateFault? (m : Moment) : Option DateFault :=
  if m.year < 1 then some (.year m.year)
  else if m.month < 1 ∨ 12 < m.month then some .month
  else if m.day < 1 ∨ daysIn m.year m.month < m.day then some .day
  else none

def clockFault? (t : Clock) : Option DateFault :=
  if 24 ≤ t.hour then some .hour
  else if 60 ≤ t.minute then some .minute
  else if 60 ≤ t.second then some .second
  else none

def zoneFault? (z : Zone) : Option DateFault :=
  if z.minutes.natAbs < 1440 then none else some (.offset z.minutes)

/-- The digits of a fraction as millionths; further digits are cut off. -/
def microseconds (ds : List Char) : Nat :=
  let ds := ds.take 6
  natOf ds * Nat.pow 10 (6 - ds.length)

/-- What is wrong with a moment: its zone is checked first, then its date, then its time. -/
def momentFault? (m : Moment) : Option DateFault :=
  ((m.time.bind fun t => t.zone).bind zoneFault?).or
    ((dateFault? m).or (m.time.bind clockFault?))

def ofMoment (m : Moment) : Timestamp :=
  { year := m.year, month := m.month, day := m.day
    time := m.time.map fun t => (t.hour, t.minute, t.second, microseconds t.fraction)
    offset := (m.time.bind fun t => t.zone).map Zone.minutes }

def timestamp (cs : List Char) : Except Fault Value :=
  match Moment.read? cs with
  | none => stray .noTimestamp
  | some m =>
    match momentFault? m with
    | some f => stray (.noDate f)
    | none => .ok (.timestamp (ofMoment m))

end NamespacePlan.Yaml.ScalarValue
