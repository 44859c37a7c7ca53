import NamespacePlan.Text.Lines
import NamespacePlan.Text.Utf8
import NamespacePlan.Xml.Declaration

/-!
The encoding of a document: told by its first bytes, or by its declaration, which is ASCII in every
other encoding. Decoding goes as far as it can, so a fault matters only to those who read that far.
-/

namespace NamespacePlan.Xml

inductive Encoding where
  | utf8
  | utf16 (little : Bool)
  | latin1
  | ascii
  deriving DecidableEq, Repr

namespace Encoding

/-- Stands where bytes are no character: a character that no document may hold. -/
def undecodable : Char := '\uffff'

def names : List (String × Encoding) :=
  [("utf-8", utf8), ("utf8", utf8), ("iso-8859-1", latin1), ("iso_8859-1", latin1),
   ("iso-latin-1", latin1), ("iso latin 1", latin1), ("latin1", latin1), ("l1", latin1),
   ("us-ascii", ascii), ("ascii", ascii)]

def ofName? (name : String) : Option Encoding :=
  names.lookup (String.ofList (name.toList.map Char.toLower))

/-- Bytes of UTF-8; `skip` of them belong to the last character. -/
def fromUtf8 (skip : Nat) : List UInt8 → List Char
  | [] => []
  | b :: rest =>
    match skip with
    | n + 1 => fromUtf8 n rest
    | 0 =>
      match Text.Utf8.next b rest with
      | .ok (c, width) => c :: fromUtf8 (width - 1) rest
      | .error _ => [undecodable]

def unit (little : Bool) (a b : UInt8) : Nat :=
  if little then a.toNat + 256 * b.toNat else 256 * a.toNat + b.toNat

/-- Bytes of UTF-16; `high` is the first half of a pair that has begun. -/
def fromUtf16 (little : Bool) (high : Option Nat) : List UInt8 → List Char
  | a :: b :: rest =>
    let n := unit little a b
    match high with
    | some h =>
      if 0xDC00 ≤ n ∧ n ≤ 0xDFFF then
        Char.ofNat (0x10000 + (h - 0xD800) * 0x400 + (n - 0xDC00)) :: fromUtf16 little none rest
      else [undecodable]
    | none =>
      if 0xD800 ≤ n ∧ n ≤ 0xDBFF then fromUtf16 little (some n) rest
      else if 0xDC00 ≤ n ∧ n ≤ 0xDFFF then [undecodable]
      else Char.ofNat n :: fromUtf16 little none rest
  | [] => if high.isSome then [undecodable] else []
  | [_] => [undecodable]

def fromAscii : List UInt8 → List Char
  | [] => []
  | b :: rest => if b < 0x80 then Char.ofNat b.toNat :: fromAscii rest else [undecodable]

def decode : Encoding → List UInt8 → List Char
  | utf8, bs => fromUtf8 0 bs
  | utf16 little, bs => fromUtf16 little none bs
  | latin1, bs => bs.map fun b => Char.ofNat b.toNat
  | ascii, bs => fromAscii bs

/-- First bytes that tell an encoding, and how many of them are a mark that is no text. -/
def marks : List (List UInt8 × Encoding × Nat) :=
  [([0xEF, 0xBB, 0xBF], utf8, 3), ([0xFF, 0xFE], utf16 true, 2), ([0xFE, 0xFF], utf16 false, 2),
   ([0x3C, 0x00, 0x3F, 0x00], utf16 true, 0), ([0x00, 0x3C, 0x00, 0x3F], utf16 false, 0)]

def marked? (bs : List UInt8) : Option (Encoding × Nat) :=
  (marks.find? fun m => m.1.isPrefixOf bs).map Prod.snd

def declared? (bs : List UInt8) : Option Encoding :=
  match Declaration.read (latin1.decode bs) with
  | some (d, _) =>
    match d.encoding with
    | some name => ofName? name
    | none => some utf8
  | none => some utf8

def of? (bs : List UInt8) : Option (Encoding × Nat) :=
  (marked? bs).or ((declared? bs).map (·, 0))

def text (e : Encoding) (bs : List UInt8) : List Char := Text.plainLines (e.decode bs)

end Encoding

def decodeDocument (bs : List UInt8) : Option (List Char) :=
  (Encoding.of? bs).map fun r => r.1.text (bs.drop r.2)

end NamespacePlan.Xml
