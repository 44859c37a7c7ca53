import NamespacePlan.Text.Ranges

/-!
The characters of XML: those that may stand in a document, and those that names are made of.
-/

namespace NamespacePlan.Xml

def isBlank (c : Char) : Bool := c == ' ' || c == '\t' || c == '\n' || c == '\x0d'

def isChar (c : Char) : Bool :=
  let n := c.toNat
  isBlank c || (0x20 ≤ n && n ≤ 0xD7FF) || (0xE000 ≤ n && n ≤ 0xFFFD) || 0x10000 ≤ n

def nameStartRanges : Text.Ranges :=
  [(0x3A, 0x3A), (0x41, 0x5A), (0x5F, 0x5F), (0x61, 0x7A), (0xC0, 0xD6), (0xD8, 0xF6),
   (0xF8, 0x2FF), (0x370, 0x37D), (0x37F, 0x1FFF), (0x200C, 0x200D), (0x2070, 0x218F),
   (0x2C00, 0x2FEF), (0x3001, 0xD7FF), (0xF900, 0xFDCF), (0xFDF0, 0xFFFD), (0x10000, 0xEFFFF)]

def nameMoreRanges : Text.Ranges :=
  [(0x2D, 0x2E), (0x30, 0x39), (0xB7, 0xB7), (0x300, 0x36F), (0x203F, 0x2040)]

def isNameStart (c : Char) : Bool := nameStartRanges.mem c

def isNameChar (c : Char) : Bool := isNameStart c || nameMoreRanges.mem c

def isPublicChar (c : Char) : Bool :=
  ('a' ≤ c && c ≤ 'z') || ('A' ≤ c && c ≤ 'Z') || ('0' ≤ c && c ≤ '9') ||
    [' ', '\n', '\x0d', '-', '\'', '(', ')', '+', ',', '.', '/', ':', '=', '?', ';', '!', '*', '#',
      '@', '$', '_', '%'].contains c

end NamespacePlan.Xml
