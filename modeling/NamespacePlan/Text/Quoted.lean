import NamespacePlan.Text.Hex
import NamespacePlan.Text.Printable

/-!
The quoted form of a text inside a message. Single quotes enclose it, unless it holds a single quote
and no double one; what cannot be shown is escaped by its code.
-/

namespace NamespacePlan.Text

def quotedChar (quote c : Char) : List Char :=
  if c = '\\' ∨ c = quote then ['\\', c]
  else if c = '\n' then ['\\', 'n']
  else if c = '\r' then ['\\', 'r']
  else if c = '\t' then ['\\', 't']
  else if isPrintable c then [c]
  else if c.toNat < 0x100 then '\\' :: 'x' :: hexDigits hexDigit 2 c.toNat
  else if c.toNat < 0x10000 then '\\' :: 'u' :: hexDigits hexDigit 4 c.toNat
  else '\\' :: 'U' :: hexDigits hexDigit 8 c.toNat

def enclosingQuote (cs : List Char) : Char :=
  if '\'' ∈ cs ∧ '"' ∉ cs then '"' else '\''

def quoted (s : String) : String :=
  let quote := enclosingQuote s.toList
  String.ofList (quote :: s.toList.flatMap (quotedChar quote) ++ [quote])

end NamespacePlan.Text
