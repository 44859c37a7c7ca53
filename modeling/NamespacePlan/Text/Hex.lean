/-!
Hexadecimal digits of a fixed width, as escapes write them, and their reading.
-/

namespace NamespacePlan.Text

def hexDigit (n : Nat) : Char :=
  if n < 10 then Char.ofNat (48 + n) else Char.ofNat (87 + n)

def upperHexDigit (n : Nat) : Char :=
  if n < 10 then Char.ofNat (48 + n) else Char.ofNat (55 + n)

/-- The last `width` digits of a number in base 16, most significant first. -/
def hexDigits (digit : Nat → Char) : Nat → Nat → List Char
  | 0, _ => []
  | width + 1, n => hexDigits digit width (n / 16) ++ [digit (n % 16)]

def hexValue? (c : Char) : Option Nat :=
  if '0' ≤ c ∧ c ≤ '9' then some (c.toNat - 48)
  else if 'a' ≤ c ∧ c ≤ 'f' then some (c.toNat - 87)
  else if 'A' ≤ c ∧ c ≤ 'F' then some (c.toNat - 55)
  else none

def hexNumber? (cs : List Char) : Option Nat :=
  cs.foldlM (fun n c => (hexValue? c).map (n * 16 + ·)) 0

@[simp] theorem length_hexDigits (digit : Nat → Char) (width n : Nat) :
    (hexDigits digit width n).length = width := by
  induction width generalizing n with
  | zero => rfl
  | succ width ih => simp [hexDigits, ih]

end NamespacePlan.Text
