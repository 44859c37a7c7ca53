/-!
Bytes as text. A fault is told by where it begins, what byte is there, and why no character could be
read.
-/

namespace NamespacePlan.Text.Utf8

inductive FaultReason where
  | badStart
  | badContinuation
  | endOfData
  deriving DecidableEq, Repr

/-- A place where no character could be read: the offset of the first byte, that byte, and how many
bytes are at fault. -/
structure Fault where
  offset : Nat
  first : UInt8
  width : Nat
  reason : FaultReason
  deriving DecidableEq, Repr

def FaultReason.message : FaultReason → String
  | badStart => "invalid start byte"
  | badContinuation => "invalid continuation byte"
  | endOfData => "unexpected end of data"

def byteText (b : UInt8) : String :=
  "0x" ++ (if b < 16 then "0" else "") ++ String.ofList (Nat.toDigits 16 b.toNat)

def Fault.message (f : Fault) : String :=
  let place :=
    if f.width = 1 then
      "byte " ++ byteText f.first ++ " in position " ++ toString f.offset
    else
      "bytes in position " ++ toString f.offset ++ "-" ++ toString (f.offset + f.width - 1)
  "'utf-8' codec can't decode " ++ place ++ ": " ++ f.reason.message

def shape? (b : UInt8) : Option (Nat × UInt8 × UInt8) :=
  if 0xC2 ≤ b ∧ b ≤ 0xDF then some (1, 0x80, 0xBF)
  else if b = 0xE0 then some (2, 0xA0, 0xBF)
  else if b = 0xED then some (2, 0x80, 0x9F)
  else if 0xE1 ≤ b ∧ b ≤ 0xEF then some (2, 0x80, 0xBF)
  else if b = 0xF0 then some (3, 0x90, 0xBF)
  else if 0xF1 ≤ b ∧ b ≤ 0xF3 then some (3, 0x80, 0xBF)
  else if b = 0xF4 then some (3, 0x80, 0x8F)
  else none

def isContinuation (b : UInt8) : Bool := 0x80 ≤ b && b ≤ 0xBF

/-- The bytes that continue a character, as far as they do: at most `count`, the first of them within
bounds. -/
def continuation (count : Nat) (low high : UInt8) (bs : List UInt8) : List UInt8 :=
  match count, bs with
  | n + 1, b :: rest =>
    if low ≤ b ∧ b ≤ high then b :: (rest.take n).takeWhile isContinuation else []
  | _, _ => []

/-- The character of a first byte that leaves `bits`, and of the bytes behind it. -/
def join (bits : Nat) (bs : List UInt8) : Char :=
  Char.ofNat (bs.foldl (fun n b => n * 64 + (b.toNat - 0x80)) bits)

/-- The bits of a character that its first byte holds, when `count` bytes follow it. -/
def leadBits (count : Nat) (b : UInt8) : Nat := b.toNat % Nat.pow 2 (6 - count)

/-- The character that the bytes begin with, and its width; or why there is none, and how many bytes
are at fault. -/
def next (b : UInt8) (rest : List UInt8) : Except (FaultReason × Nat) (Char × Nat) :=
  if b < 0x80 then .ok (Char.ofNat b.toNat, 1)
  else
    match shape? b with
    | none => .error (.badStart, 1)
    | some (count, low, high) =>
      let more := continuation count low high rest
      if more.length = count then .ok (join (leadBits count b) more, count + 1)
      else
        .error (if more.length = rest.length then .endOfData else .badContinuation, more.length + 1)

/-- The characters of bytes that begin at an offset; `skip` bytes are part of the last character. -/
def decodeFrom (offset skip : Nat) : List UInt8 → Except Fault (List Char)
  | [] => .ok []
  | b :: rest =>
    match skip with
    | n + 1 => decodeFrom (offset + 1) n rest
    | 0 =>
      match next b rest with
      | .error (reason, width) => .error ⟨offset, b, width, reason⟩
      | .ok (c, width) => (decodeFrom (offset + 1) (width - 1) rest).map (c :: ·)

def decode (bs : List UInt8) : Except Fault (List Char) := decodeFrom 0 0 bs

end NamespacePlan.Text.Utf8
