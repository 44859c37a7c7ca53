import NamespacePlan.Data.Datum
import NamespacePlan.Text.Hex

/-!
JSON text, indented by two spaces, in ASCII only. Characters outside ASCII are written as escapes of
their UTF-16 units.
-/

namespace NamespacePlan.Json

open Text

def unitEscape (n : Nat) : List Char := '\\' :: 'u' :: hexDigits hexDigit 4 n

def escape (c : Char) : List Char :=
  if c = '"' then ['\\', '"']
  else if c = '\\' then ['\\', '\\']
  else if c = '\n' then ['\\', 'n']
  else if c = '\r' then ['\\', 'r']
  else if c = '\t' then ['\\', 't']
  else if c = '\x0c' then ['\\', 'f']
  else if c = '\x08' then ['\\', 'b']
  else if ' ' ≤ c ∧ c ≤ '~' then [c]
  else if c.toNat < 0x10000 then unitEscape c.toNat
  else
    let n := c.toNat - 0x10000
    unitEscape (0xD800 + n / 0x400) ++ unitEscape (0xDC00 + n % 0x400)

def string (s : String) : List Char := '"' :: s.toList.flatMap escape ++ ['"']

def newline (depth : Nat) : List Char := '\n' :: List.replicate (2 * depth) ' '

mutual

/-- A value whose members stand one level deeper than `depth`. -/
def write (depth : Nat) : Datum → List Char
  | .null => "null".toList
  | .bool b => if b then "true".toList else "false".toList
  | .text s => string s
  | .list [] => "[]".toList
  | .list (d :: ds) =>
    '[' :: newline (depth + 1) ++ write (depth + 1) d ++ writeItems (depth + 1) ds ++
      newline depth ++ [']']
  | .object [] => ['{', '}']
  | .object ((k, d) :: fs) =>
    '{' :: newline (depth + 1) ++ string k ++ [':', ' '] ++ write (depth + 1) d ++
      writeFields (depth + 1) fs ++ newline depth ++ ['}']

def writeItems (depth : Nat) : List Datum → List Char
  | [] => []
  | d :: ds => ',' :: newline depth ++ write depth d ++ writeItems depth ds

def writeFields (depth : Nat) : List (String × Datum) → List Char
  | [] => []
  | (k, d) :: fs =>
    ',' :: newline depth ++ string k ++ [':', ' '] ++ write depth d ++ writeFields depth fs

end

def render (d : Datum) : String := String.ofList (write 0 d)

end NamespacePlan.Json
