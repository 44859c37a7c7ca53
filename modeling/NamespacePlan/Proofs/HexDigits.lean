import NamespacePlan.Text.Hex

/-! Hexadecimal digits read back. A number that fits into the width is read from its digits, in either
case of the letters. -/
namespace NamespacePlan.Text

theorem toNat_lt_limit (c : Char) : c.toNat < 0x110000 := by
  have valid := c.valid
  simp only [UInt32.isValidChar, Nat.isValidChar] at valid
  simp only [Char.toNat]
  omega

/-- Each digit up to fifteen is read back from the character that writes it. -/
def ReadsBack (digit : Nat → Char) : Prop := ∀ d < 16, hexValue? (digit d) = some d

theorem readsBack_hexDigit : ReadsBack hexDigit := by
  unfold ReadsBack
  decide

theorem readsBack_upperHexDigit : ReadsBack upperHexDigit := by
  unfold ReadsBack
  decide

theorem hexNumber?_append_singleton (cs : List Char) (c : Char) :
    hexNumber? (cs ++ [c]) =
      (hexNumber? cs).bind fun n => (hexValue? c).map (n * 16 + ·) := by
  rw [hexNumber?, hexNumber?, List.foldlM_append]
  cases cs.foldlM (fun n c => (hexValue? c).map (n * 16 + ·)) 0 with
  | none => rfl
  | some n => cases h : hexValue? c <;> simp [h]

theorem hexNumber?_hexDigits {digit : Nat → Char} (reads : ReadsBack digit) {width n : Nat}
    (fits : n < Nat.pow 16 width) : hexNumber? (hexDigits digit width n) = some n := by
  induction width generalizing n with
  | zero =>
    have zero : n = 0 := Nat.lt_one_iff.1 fits
    rw [zero]
    rfl
  | succ width ih =>
    have front : n / 16 < Nat.pow 16 width := Nat.div_lt_of_lt_mul ((Nat.mul_comm _ _) ▸ fits)
    have last : n % 16 < 16 := Nat.mod_lt n (by decide)
    rw [hexDigits, hexNumber?_append_singleton, ih front, Option.bind_some, reads _ last,
      Option.map_some]
    congr 1
    omega

theorem mem_hexDigits {digit : Nat → Char} {width n : Nat} {c : Char}
    (member : c ∈ hexDigits digit width n) : ∃ d < 16, c = digit d := by
  induction width generalizing n with
  | zero => cases member
  | succ width ih =>
    rw [hexDigits, List.mem_append, List.mem_singleton] at member
    rcases member with front | last
    · exact ih front
    · exact ⟨_, Nat.mod_lt n (by decide), last⟩

end NamespacePlan.Text
