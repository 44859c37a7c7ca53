import NamespacePlan.Proofs.CaseMapping

/-! Character classes on ASCII. Of every table the entries that begin there decide alone, and they
leave the letters and digits of the alphabet, with one uppercase letter for each lowercase one. -/
namespace NamespacePlan.Text

def asciiChars : List Char := (List.range 128).map Char.ofNat

theorem mem_asciiChars {c : Char} (small : c.toNat < 128) : c ∈ asciiChars :=
  List.mem_map.2 ⟨c.toNat, List.mem_range.2 small, Char.ofNat_toNat c⟩

/-- Functions that agree on the list agree on ASCII. -/
theorem eq_on_ascii {α : Type} [DecidableEq α] (f g : Char → α) {c : Char} (small : c.toNat < 128)
    (all : (asciiChars.all fun c => f c == g c) = true) : f c = g c :=
  eq_of_beq (List.all_eq_true.1 all c (mem_asciiChars small))

/-- The intervals that begin in ASCII. -/
def Ranges.low (rs : Ranges) : Ranges := rs.filter fun r => r.1.blt 128

theorem Ranges.mem_low (rs : Ranges) {c : Char} (small : c.toNat < 128) :
    rs.low.mem c = rs.mem c := by
  rw [Bool.eq_iff_iff, mem_iff, mem_iff]
  simp only [low, List.mem_filter, Nat.blt_eq]
  constructor
  · rintro ⟨r, ⟨member, _⟩, inside⟩
    exact ⟨r, member, inside⟩
  · rintro ⟨r, member, above, below⟩
    exact ⟨r, ⟨member, by omega⟩, above, below⟩

/-- The run that raises the alphabet. -/
def alphabetRun : CaseRun := ⟨0x61, 0x7A, 1, -32⟩

theorem lowRuns_eq : (caseRuns.filter fun r => r.first.blt 128) = [alphabetRun] := rfl

theorem find?_caseRuns {n : Nat} (small : n < 128) :
    caseRuns.find? (·.covers n) = [alphabetRun].find? (·.covers n) := by
  rw [← lowRuns_eq, List.find?_filter]
  congr 1
  funext r
  rw [Bool.eq_iff_iff, decide_eq_true_eq, Nat.blt_eq]
  constructor
  · intro covered
    have first := ((r.covers_iff n).1 covered).1
    exact ⟨by omega, covered⟩
  · exact fun both => both.2

section Classes

variable {c : Char} (small : c.toNat < 128)

include small

theorem isLowercase_ascii : isLowercase c = c.isLower := by
  have table : lowercaseRanges.low = [(0x61, 0x7A)] := by decide +kernel
  rw [isLowercase, ← Ranges.mem_low _ small, table]
  exact eq_on_ascii (Ranges.mem [(0x61, 0x7A)]) Char.isLower small (by decide +kernel)

/-- Nothing in ASCII becomes several characters, and one run raises its letters. -/
theorem upperChar_ascii : upperChar c = [c.toUpper] := by
  have single : caseExpansions.lookup c.toNat = none := by
    have high : (caseExpansions.all fun e => Nat.ble 128 e.1) = true := by decide +kernel
    rw [List.lookup_eq_none_iff]
    intro e member
    have above := Nat.le_of_ble_eq_true (List.all_eq_true.1 high e member)
    rw [bne_iff_ne]
    omega
  have raise := eq_on_ascii
    (fun c => if alphabetRun.covers c.toNat then alphabetRun.raise c.toNat else c) Char.toUpper small
    (by decide +kernel)
  rw [upperChar, single, find?_caseRuns small, ← raise]
  by_cases covered : alphabetRun.covers c.toNat = true
  · simp [covered]
  · simp [covered]

end Classes

end NamespacePlan.Text

namespace NamespacePlan.Identifier

open Text

section Names

variable {c : Char} (small : c.toNat < 128)

include small

/-- The letters and the underscore begin both names and identifiers. -/
theorem isIdentifierStart_ascii : isIdentifierStart c = startsName c := by
  have barred : nonStartLetterRanges.low = [] := by decide +kernel
  have added : nonLetterStartRanges.low = [] := by decide +kernel
  rw [isIdentifierStart, ← Ranges.mem_low nonStartLetterRanges small, barred,
    ← Ranges.mem_low nonLetterStartRanges small, added]
  simp [Ranges.mem, startsName, Bool.or_comm]

theorem isIdentifierContinue_ascii : isIdentifierContinue c = staysInName c := by
  have table : continueOnlyRanges.low = numericRanges.low := by decide +kernel
  rw [isIdentifierContinue, isIdentifierStart_ascii small, ← Ranges.mem_low _ small, table,
    Ranges.mem_low _ small, startsName, staysInName, isNumeric, Bool.or_right_comm]

end Names

end NamespacePlan.Identifier
