import NamespacePlan.Text.Digit

/-!
Bytes written as characters of six bits each. Characters that stand for no bits are passed over.
-/

namespace NamespacePlan.Text.Base64

def bits? (c : Char) : Option Nat :=
  if 'A' ≤ c ∧ c ≤ 'Z' then some (c.toNat - 65)
  else if 'a' ≤ c ∧ c ≤ 'z' then some (c.toNat - 71)
  else if isDigit c then some (c.toNat + 4)
  else if c = '+' then some 62
  else if c = '/' then some 63
  else none

/-- The bytes behind `pos` characters of a group of four, the last of which left the bits `left`, and
behind `pads` signs of padding. Enough padding ends the text; without it a group must be complete. -/
def decodeFrom (pos left pads : Nat) : List Char → Option (List UInt8)
  | [] => if pos = 0 then some [] else none
  | c :: cs =>
    if c = '=' then
      if pos < 2 then decodeFrom pos left pads cs
      else if 4 ≤ pos + pads + 1 then some []
      else decodeFrom pos left (pads + 1) cs
    else
      match bits? c with
      | none => decodeFrom pos left pads cs
      | some b =>
        match pos with
        | 0 => decodeFrom 1 b 0 cs
        | 1 => (decodeFrom 2 (b % 16) 0 cs).map (UInt8.ofNat (left * 4 + b / 16) :: ·)
        | 2 => (decodeFrom 3 (b % 4) 0 cs).map (UInt8.ofNat (left * 16 + b / 4) :: ·)
        | _ => (decodeFrom 0 0 0 cs).map (UInt8.ofNat (left * 64 + b) :: ·)

def decode (cs : List Char) : Option (List UInt8) := decodeFrom 0 0 0 cs

end NamespacePlan.Text.Base64
