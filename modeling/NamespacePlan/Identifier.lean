import NamespacePlan.Text.IdentifierClass
import NamespacePlan.Text.Lowercase
import NamespacePlan.Text.Numeric
import NamespacePlan.Text.Split
import NamespacePlan.Text.Uppercase

/-!
Names of code namespaces. A namespace prefix is cleaned into an identifier and put into Pascal case;
a sub-namespace is qualified by the root it lies under.
-/

namespace NamespacePlan.Identifier

open Text

def startsName (c : Char) : Bool := isLetter c || c == '_'

def staysInName (c : Char) : Bool := isLetter c || isNumeric c || c == '_'

/-- Only name characters, with a name character in front that may begin one. -/
def isClean : List Char → Bool
  | [] => false
  | c :: cs => startsName c && (c :: cs).all staysInName

/-- Drops what no name holds, and puts `Item` in front of a rest that cannot begin a name. -/
def cleanChars (cs : List Char) : List Char :=
  match cs.filter staysInName with
  | [] => "Item".toList
  | c :: rest => if startsName c then c :: rest else "Item".toList ++ c :: rest

/-- Names of at most two characters are raised whole, longer ones in their first letter. -/
def pascalChars (cs : List Char) : List Char :=
  match cleanChars cs with
  | [] => []
  | c :: rest =>
    if rest.length ≤ 1 then upper (c :: rest)
    else if isLowercase c then upperChar c ++ rest
    else c :: rest

def clean (s : String) : String := String.ofList (cleanChars s.toList)

def pascal (s : String) : String := String.ofList (pascalChars s.toList)

/-- A sub-namespace below the root; the empty key is the root itself. -/
def qualify (root key : String) : String :=
  if key = "" then root else root ++ "." ++ key

/-- Every segment between dots is an identifier. -/
def isDotted (s : String) : Bool := (splitAt '.' s.toList).all isIdentifier

end NamespacePlan.Identifier
