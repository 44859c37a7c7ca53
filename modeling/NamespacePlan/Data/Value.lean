import NamespacePlan.Data.Binary64
import NamespacePlan.Text.Quoted

/-!
Data read from a configuration text. The two formats share one type of values; only the richer one has
bytes, dates and sets, and keys that are no texts.
-/

namespace NamespacePlan

structure Timestamp where
  year : Nat
  month : Nat
  day : Nat
  time : Option (Nat × Nat × Nat × Nat) := none
  offset : Option Int := none
  deriving DecidableEq, Repr

inductive Value where
  | null
  | bool (b : Bool)
  | int (i : Int)
  | float (x : Binary64)
  | text (s : String)
  /-- A text with a half of a surrogate pair in it, which is no text to anybody else. -/
  | brokenText
  | bytes (bs : List UInt8)
  | timestamp (t : Timestamp)
  | list (xs : List Value)
  | map (es : List (Value × Value))
  | set (xs : List Value)
  deriving Repr

namespace Value

def number? : Value → Option (Int × Nat)
  | bool b => some (if b then 1 else 0, 1)
  | int i => some (i, 1)
  | float x => x.value?
  | _ => none

def instant (t : Timestamp) : Int × Nat :=
  let y := if t.month ≤ 2 then t.year - 1 else t.year
  let m := if t.month ≤ 2 then t.month + 9 else t.month - 3
  let days := 365 * y + y / 4 - y / 100 + y / 400 + (153 * m + 2) / 5 + t.day
  let (h, mi, s, us) := t.time.getD (0, 0, 0, 0)
  ((days * 86400 + h * 3600 + mi * 60 + s : Nat) - 60 * t.offset.getD 0, us)

/-- Two timestamps mean the same: both dates, both local times, or both times of one instant. -/
def sameTimestamp (a b : Timestamp) : Bool :=
  a.time.isSome == b.time.isSome && a.offset.isSome == b.offset.isSome && instant a == instant b

/-- Two keys are one key of a map: equal numbers of whatever kind, or equal values of one kind. -/
def sameKey (a b : Value) : Bool :=
  match a.number?, b.number? with
  | some (n, d), some (k, c) => n * c == k * d
  | none, none =>
    match a, b with
    | null, null => true
    | float x, float y => x == y && x != .nan
    | text s, text t => s == t
    | bytes s, bytes t => s == t
    | timestamp s, timestamp t => sameTimestamp s t
    | _, _ => false
  | _, _ => false

def isKey : Value → Bool
  | list _ | map _ | set _ => false
  | _ => true

/-- Writes an entry: in place when the key is there, keeping the key as first written. -/
def putEntry (k v : Value) : List (Value × Value) → List (Value × Value)
  | [] => [(k, v)]
  | e :: es => if sameKey e.1 k then (e.1, v) :: es else e :: putEntry k v es

def mapOf (es : List (Value × Value)) : List (Value × Value) :=
  es.foldl (fun m e => putEntry e.1 e.2 m) []

/-- The most digits of a whole number in decimal notation. -/
def digitLimit : Nat := 4300

def tooLongText (digits : Nat) : String :=
  "Exceeds the limit (" ++ toString digitLimit ++
    " digits) for integer string conversion: value has " ++ toString digits ++
    " digits; use sys.set_int_max_str_digits() to increase the limit"

def spanText (minutes : Int) : String :=
  let seconds := minutes * 60
  let days := seconds / 86400
  let rest := seconds % 86400
  let parts := (if days = 0 then [] else ["days=" ++ toString days]) ++
    (if rest = 0 then [] else ["seconds=" ++ toString rest])
  "datetime.timedelta(" ++ (if parts.isEmpty then "0" else String.intercalate ", " parts) ++ ")"

def offsetText (minutes : Int) : String :=
  if minutes = 0 then "datetime.timezone.utc" else "datetime.timezone(" ++ spanText minutes ++ ")"

def timestampText (t : Timestamp) : String :=
  let date := toString t.year ++ ", " ++ toString t.month ++ ", " ++ toString t.day
  match t.time with
  | none => "datetime.date(" ++ date ++ ")"
  | some (h, mi, s, us) =>
    "datetime.datetime(" ++ date ++ ", " ++ toString h ++ ", " ++ toString mi ++
      (if s = 0 ∧ us = 0 then "" else ", " ++ toString s) ++
      (if us = 0 then "" else ", " ++ toString us) ++
      (match t.offset with
       | none => ""
       | some o => ", tzinfo=" ++ offsetText o) ++ ")"

def quotedByte (quote : Char) (b : UInt8) : List Char :=
  let c := Char.ofNat b.toNat
  if c = '\\' ∨ c = quote then ['\\', c]
  else if c = '\n' then ['\\', 'n']
  else if c = '\r' then ['\\', 'r']
  else if c = '\t' then ['\\', 't']
  else if 0x20 ≤ b.toNat ∧ b.toNat < 0x7F then [c]
  else '\\' :: 'x' :: Text.hexDigits Text.hexDigit 2 b.toNat

def bytesText (bs : List UInt8) : String :=
  let quote := Text.enclosingQuote (bs.map fun b => Char.ofNat b.toNat)
  String.ofList ('b' :: quote :: bs.flatMap (quotedByte quote) ++ [quote])

def keyText : Value → String
  | null => "None"
  | bool b => if b then "True" else "False"
  | int i => toString i
  | float x => x.text
  | text s => s
  | bytes bs => bytesText bs
  | timestamp t => timestampText t
  | _ => ""

end Value

end NamespacePlan
