import NamespacePlan.Data.Value
import NamespacePlan.Text.Digit
import NamespacePlan.Text.Hex

/-!
Reading of JSON text. A fault is reported by what was expected and by the characters that were left
when it was noticed; its line and column follow from those.
-/

namespace NamespacePlan.Json

open Text

inductive Fault where
  | leadingMark
  | expectedValue
  | expectedKey
  | expectedColon
  | expectedComma
  | extraData
  | unterminatedString
  | controlCharacter
  | badEscape
  | badUnitEscape
  | tooLong (digits : Nat)
  | tooDeep (object : Bool)
  deriving DecidableEq, Repr

def Fault.message : Fault → String
  | leadingMark => "Unexpected UTF-8 BOM (decode using utf-8-sig)"
  | expectedValue => "Expecting value"
  | expectedKey => "Expecting property name enclosed in double quotes"
  | expectedColon => "Expecting ':' delimiter"
  | expectedComma => "Expecting ',' delimiter"
  | extraData => "Extra data"
  | unterminatedString => "Unterminated string starting at"
  | controlCharacter => "Invalid control character at"
  | badEscape => "Invalid \\escape"
  | badUnitEscape => "Invalid \\uXXXX escape"
  | tooLong digits => Value.tooLongText digits
  | tooDeep object =>
    "maximum recursion depth exceeded while decoding a JSON " ++
      (if object then "object" else "array") ++ " from a unicode string"

/-- A fault and how many characters were left where it lies. -/
structure Error where
  fault : Fault
  left : Nat
  deriving DecidableEq, Repr

/-- A part that was read, and the rest of the text. -/
abbrev Step (α : Type) := Except Error (α × List Char)

def failAt {α : Type} (fault : Fault) (rest : List Char) : Except Error α :=
  .error ⟨fault, rest.length⟩

def isBlank (c : Char) : Bool := c == ' ' || c == '\t' || c == '\n' || c == '\x0d'

def skipBlanks (cs : List Char) : List Char := cs.dropWhile isBlank

def escaped? (c : Char) : Option Char :=
  [('"', '"'), ('\\', '\\'), ('/', '/'), ('b', '\x08'), ('f', '\x0c'), ('n', '\n'),
   ('r', '\x0d'), ('t', '\t')].lookup c

def isHigh (n : Nat) : Bool := 0xD800 ≤ n && n ≤ 0xDBFF

def isLow (n : Nat) : Bool := 0xDC00 ≤ n && n ≤ 0xDFFF

def joined (high low : Nat) : Char :=
  Char.ofNat (0x10000 + (high - 0xD800) * 0x400 + (low - 0xDC00))

/-- The inside of a string up to its quote. Halves of surrogate pairs that stand alone are `none`.
`start` is how many characters were left at the opening quote. -/
def stringBody (start : Nat) : List Char → Step (List (Option Char))
  | [] => .error ⟨.unterminatedString, start⟩
  | '"' :: rest => .ok ([], rest)
  | '\\' :: [] => .error ⟨.unterminatedString, start⟩
  | '\\' :: 'u' :: rest =>
    match rest with
    | a :: b :: c :: d :: tail =>
      if tail.isEmpty then failAt .badUnitEscape ('u' :: rest)
      else
        match hexNumber? [a, b, c, d] with
        | none => failAt .badUnitEscape ('u' :: rest)
        | some n =>
          match tail with
          | '\\' :: 'u' :: e :: f :: g :: h :: after =>
            if isHigh n && !after.isEmpty then
              match hexNumber? [e, f, g, h] with
              | none => failAt .badUnitEscape ('u' :: e :: f :: g :: h :: after)
              | some m =>
                if isLow m then push (some (joined n m)) (stringBody start after)
                else push none (stringBody start ('\\' :: 'u' :: e :: f :: g :: h :: after))
            else
              push (single n) (stringBody start ('\\' :: 'u' :: e :: f :: g :: h :: after))
          | tail => push (single n) (stringBody start tail)
    | short => failAt .badUnitEscape ('u' :: short)
  | '\\' :: c :: rest =>
    match escaped? c with
    | some e => push (some e) (stringBody start rest)
    | none => failAt .badEscape ('\\' :: c :: rest)
  | c :: rest =>
    if c < ' ' then failAt .controlCharacter (c :: rest)
    else push (some c) (stringBody start rest)
where
  push (c : Option Char) (s : Step (List (Option Char))) : Step (List (Option Char)) :=
    s.map fun r => (c :: r.1, r.2)
  single (n : Nat) : Option Char := if isHigh n || isLow n then none else some (Char.ofNat n)

/-- A text, unless a half of a surrogate pair is in it. -/
def textOf (cs : List (Option Char)) : Value :=
  match cs.mapM id with
  | some cs => .text (String.ofList cs)
  | none => .brokenText

def stringValue (rest : List Char) : Step Value :=
  (stringBody (rest.length + 1) rest).map fun r => (textOf r.1, r.2)

/-- Digits behind a point, if there are any; else nothing is read. -/
def fraction (cs : List Char) : Option (List Char) × List Char :=
  match cs with
  | '.' :: d :: rest =>
    if isDigit d then (some (d :: rest.takeWhile isDigit), rest.dropWhile isDigit) else (none, cs)
  | _ => (none, cs)

def exponent (cs : List Char) : Option Int × List Char :=
  match cs with
  | e :: rest =>
    if e = 'e' ∨ e = 'E' then
      let (negative, ds) := match rest with
        | '-' :: ds => (true, ds)
        | '+' :: ds => (false, ds)
        | ds => (false, ds)
      let run := ds.takeWhile isDigit
      if run.isEmpty then (none, cs)
      else
        let n : Int := natOf run
        (some (if negative then -n else n), ds.dropWhile isDigit)
    else (none, cs)
  | [] => (none, cs)

/-- A number, its sign already read; `start` is the rest that began with it. -/
def number (negative : Bool) (start cs : List Char) : Step Value :=
  let whole := match cs with
    | '0' :: rest => some (['0'], rest)
    | c :: rest =>
      if isDigit c then some (c :: rest.takeWhile isDigit, rest.dropWhile isDigit) else none
    | [] => none
  match whole with
  | none => failAt .expectedValue start
  | some (ds, rest) =>
    let (fs, rest) := fraction rest
    let (e, rest) := exponent rest
    if fs.isNone && e.isNone then
      if Value.digitLimit < ds.length then failAt (.tooLong ds.length) start
      else
        let n : Int := natOf ds
        .ok (.int (if negative then -n else n), rest)
    else
      let fs := fs.getD []
      .ok (.float (Binary64.ofDecimal negative (natOf (ds ++ fs)) (e.getD 0 - fs.length)), rest)

def words : List (List Char × Value) :=
  [("null".toList, .null), ("true".toList, .bool true), ("false".toList, .bool false),
   ("NaN".toList, .float .nan), ("Infinity".toList, .float (.infinite false)),
   ("-Infinity".toList, .float (.infinite true))]

def scalar (cs : List Char) : Step Value :=
  match words.find? fun w => w.1.isPrefixOf cs with
  | some (w, v) => .ok (v, cs.drop w.length)
  | none =>
    match cs with
    | '"' :: rest => stringValue rest
    | '-' :: rest => number true cs rest
    | _ => number false cs cs

/-- How deep brackets may still nest inside one that is opened. -/
def enter (object : Bool) (nesting : Option Nat) (cs : List Char) : Except Error (Option Nat) :=
  match nesting with
  | none => .ok none
  | some 0 => failAt (.tooDeep object) cs
  | some (n + 1) => .ok (some n)

mutual

/-- A value. Each level of nesting takes a character and two units of fuel, so twice the length of the
text is enough; running out of it would be the fault of an endless text. -/
def value (nesting : Option Nat) : Nat → List Char → Step Value
  | 0, cs => failAt .expectedValue cs
  | fuel + 1, '[' :: rest =>
    match enter false nesting ('[' :: rest) with
    | .error e => .error e
    | .ok inner =>
      match skipBlanks rest with
      | ']' :: tail => .ok (.list [], tail)
      | body => (items inner fuel body).map fun r => (.list r.1, r.2)
  | fuel + 1, '\x7b' :: rest =>
    match enter true nesting ('\x7b' :: rest) with
    | .error e => .error e
    | .ok inner =>
      match skipBlanks rest with
      | '\x7d' :: tail => .ok (.map [], tail)
      | body => (members inner fuel body).map fun r => (.map (Value.mapOf r.1), r.2)
  | _ + 1, cs => scalar cs

def items (nesting : Option Nat) : Nat → List Char → Step (List Value)
  | 0, cs => failAt .expectedValue cs
  | fuel + 1, cs =>
    match value nesting fuel cs with
    | .error e => .error e
    | .ok (v, rest) =>
      match skipBlanks rest with
      | ']' :: tail => .ok ([v], tail)
      | ',' :: tail => (items nesting fuel (skipBlanks tail)).map fun r => (v :: r.1, r.2)
      | other => failAt .expectedComma other

def members (nesting : Option Nat) : Nat → List Char → Step (List (Value × Value))
  | 0, cs => failAt .expectedValue cs
  | fuel + 1, cs =>
    match cs with
    | '"' :: inner =>
      match stringValue inner with
      | .error e => .error e
      | .ok (k, rest) =>
        match skipBlanks rest with
        | ':' :: tail =>
          match value nesting fuel (skipBlanks tail) with
          | .error e => .error e
          | .ok (v, rest) =>
            match skipBlanks rest with
            | '\x7d' :: tail => .ok ([(k, v)], tail)
            | ',' :: tail =>
              (members nesting fuel (skipBlanks tail)).map fun r => ((k, v) :: r.1, r.2)
            | other => failAt .expectedComma other
        | other => failAt .expectedColon other
    | other => failAt .expectedKey other

end

/-- The value of a text in which brackets may nest so deep. -/
def readWithin (nesting : Option Nat) (cs : List Char) : Except Error Value :=
  if cs.head? = some '\ufeff' then failAt .leadingMark cs
  else
    match value nesting (2 * cs.length + 2) (skipBlanks cs) with
    | .error e => .error e
    | .ok (v, rest) =>
      match skipBlanks rest with
      | [] => .ok v
      | extra => failAt .extraData extra

def read (cs : List Char) : Except Error Value := readWithin none cs

def Error.message (e : Error) (cs : List Char) : String :=
  let offset := cs.length - e.left
  let before := cs.take offset
  let line := before.count '\n' + 1
  let column := (before.reverse.takeWhile (· != '\n')).length + 1
  e.fault.message ++ ": line " ++ toString line ++ " column " ++ toString column ++ " (char " ++
    toString offset ++ ")"

end NamespacePlan.Json
