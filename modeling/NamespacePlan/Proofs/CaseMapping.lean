import NamespacePlan.Identifier

/-! Uppercase and the characters of identifiers. A character that a name keeps and that has an
uppercase of its own starts an identifier, and its uppercase is an identifier again; the tables are
compared interval by interval. -/
namespace NamespacePlan

namespace Text

namespace Ranges

/-- One interval holds all code points from `low` to `high`. -/
def covers (rs : Ranges) (low high : Nat) : Bool := rs.any fun r => r.1.ble low && high.ble r.2

def avoids (rs : Ranges) (low high : Nat) : Bool := rs.all fun r => high.blt r.1 || r.2.blt low

/-- Each interval of the second list lies in one of the first. Both lists go upwards, so one walk
along them tells. -/
def coversAll : Ranges → Ranges → Bool
  | [], inner => inner.isEmpty
  | r :: rs, inner =>
    match inner.dropWhile fun s => r.1.ble s.1 && s.2.ble r.2 with
    | [] => true
    | s :: rest => coversAll rs (s :: rest)

variable {rs : Ranges} {low high : Nat} {c : Char}

theorem mem_of_covers (covered : rs.covers low high = true) (above : low ≤ c.toNat)
    (below : c.toNat ≤ high) : rs.mem c = true := by
  simp only [covers, List.any_eq_true, Bool.and_eq_true, Nat.ble_eq] at covered
  obtain ⟨r, member, first, last⟩ := covered
  exact (mem_iff rs c).2 ⟨r, member, Nat.le_trans first above, Nat.le_trans below last⟩

theorem covers_cons (r : Nat × Nat) (rs : Ranges) (low high : Nat) :
    covers (r :: rs) low high = (r.1.ble low && high.ble r.2 || rs.covers low high) :=
  List.any_cons

theorem covers_of_coversAll {rs inner : Ranges} (all : rs.coversAll inner = true) :
    ∀ s ∈ inner, rs.covers s.1 s.2 = true := by
  induction rs generalizing inner with
  | nil =>
    have empty : inner = [] := List.isEmpty_iff.1 all
    simp [empty]
  | cons r rs ih =>
    intro s member
    rw [covers_cons, Bool.or_eq_true]
    rw [← List.takeWhile_append_dropWhile (p := fun s => r.1.ble s.1 && s.2.ble r.2) (l := inner),
      List.mem_append] at member
    rw [coversAll] at all
    rcases member with held | later
    · exact Or.inl (List.all_eq_true.1 List.all_takeWhile s held)
    · split at all
      case h_1 none_left =>
        rw [none_left] at later
        cases later
      case h_2 rest_left =>
        rw [rest_left] at later
        exact Or.inr (ih all s later)

theorem not_mem_of_avoids (avoided : rs.avoids low high = true) (above : low ≤ c.toNat)
    (below : c.toNat ≤ high) : rs.mem c = false := by
  simp only [avoids, List.all_eq_true, Bool.or_eq_true, Nat.blt_eq] at avoided
  rw [Bool.eq_false_iff, ne_eq, mem_iff]
  rintro ⟨r, member, first, last⟩
  rcases avoided r member with before | after
  · omega
  · omega

end Ranges

theorem isIdentifierContinue_of_start {c : Char} (start : isIdentifierStart c = true) :
    isIdentifierContinue c = true := by
  rw [isIdentifierContinue, start, Bool.true_or]

/-- The blocks of letters that hold those with a case and their uppercase. They are few, so the case
tables are held against these and not against all letters. -/
def casedLetters : Ranges :=
  [(0x41, 0x5A), (0x61, 0x7A), (0xB5, 0xB5), (0xC0, 0xD6), (0xD8, 0xF6), (0xF8, 0x2BE),
   (0x370, 0x373), (0x376, 0x377), (0x37B, 0x37D), (0x37F, 0x37F), (0x386, 0x386), (0x388, 0x38A),
   (0x38C, 0x38C), (0x38E, 0x3A1), (0x3A3, 0x3F5), (0x3F7, 0x481), (0x48A, 0x52F), (0x531, 0x556),
   (0x561, 0x587), (0x10A0, 0x10C5), (0x10C7, 0x10C7), (0x10CD, 0x10CD), (0x10D0, 0x10FA),
   (0x10FD, 0x10FF), (0x13A0, 0x13F5), (0x13F8, 0x13FD), (0x1C80, 0x1C88), (0x1C90, 0x1CBA),
   (0x1CBD, 0x1CBF), (0x1D79, 0x1D8E), (0x1E00, 0x1F15), (0x1F18, 0x1F1D), (0x1F20, 0x1F45),
   (0x1F48, 0x1F4D), (0x1F50, 0x1F57), (0x1F59, 0x1F59), (0x1F5B, 0x1F5B), (0x1F5D, 0x1F5D),
   (0x1F5F, 0x1F7D), (0x1F80, 0x1FB4), (0x1FB6, 0x1FBC), (0x1FBE, 0x1FBE), (0x1FC2, 0x1FC4),
   (0x1FC6, 0x1FCC), (0x1FD0, 0x1FD3), (0x1FD6, 0x1FDB), (0x1FE0, 0x1FEC), (0x1FF2, 0x1FF4),
   (0x1FF6, 0x1FFC), (0x2132, 0x2132), (0x214E, 0x214E), (0x2183, 0x2184),
   (0x2C00, 0x2CE3), (0x2CEB, 0x2CEE), (0x2CF2, 0x2CF3), (0x2D00, 0x2D25), (0x2D27, 0x2D27),
   (0x2D2D, 0x2D2D), (0xA640, 0xA66D), (0xA680, 0xA69B), (0xA722, 0xA787), (0xA78B, 0xA7CA),
   (0xA7D0, 0xA7D1), (0xA7D6, 0xA7D9), (0xA7F5, 0xA7F6), (0xAB53, 0xAB53), (0xAB70, 0xABBF),
   (0xFB00, 0xFB06), (0xFB13, 0xFB17), (0xFF21, 0xFF3A), (0xFF41, 0xFF5A), (0x10400, 0x1044F),
   (0x104B0, 0x104D3), (0x104D8, 0x104FB), (0x10570, 0x1057A), (0x1057C, 0x1058A),
   (0x1058C, 0x10592), (0x10594, 0x10595), (0x10597, 0x105A1), (0x105A3, 0x105B1),
   (0x105B3, 0x105B9), (0x105BB, 0x105BC), (0x10C80, 0x10CB2), (0x10CC0, 0x10CF2),
   (0x118A0, 0x118DF), (0x16E40, 0x16E7F), (0x1E900, 0x1E943)]

theorem casedLetters_letters : letterRanges.coversAll casedLetters = true := by decide +kernel

theorem casedLetters_plain :
    (casedLetters.all fun r => nonStartLetterRanges.avoids r.1 r.2) = true := by decide +kernel

/-- The roman numerals have a case as well. -/
def casedStarts : Ranges := (0x2160, 0x217F) :: casedLetters

theorem isIdentifierStart_of_cased {low high : Nat} (cased : casedStarts.covers low high = true)
    {c : Char} (above : low ≤ c.toNat) (below : c.toNat ≤ high) : isIdentifierStart c = true := by
  rw [casedStarts, Ranges.covers_cons, Bool.or_eq_true] at cased
  rcases cased with numeral | cased
  · have numerals : nonLetterStartRanges.covers 0x2160 0x217F = true := by decide
    rw [Bool.and_eq_true, Nat.ble_eq, Nat.ble_eq] at numeral
    have member := Ranges.mem_of_covers numerals (Nat.le_trans numeral.1 above)
      (Nat.le_trans below numeral.2)
    rw [isIdentifierStart, member, Bool.or_true]
  · obtain ⟨r, member, first, last⟩ :=
      (Ranges.mem_iff _ _).1 (Ranges.mem_of_covers cased above below)
    have letter : isLetter c = true :=
      Ranges.mem_of_covers (Ranges.covers_of_coversAll casedLetters_letters r member) first last
    have plain : nonStartLetterRanges.mem c = false :=
      Ranges.not_mem_of_avoids (List.all_eq_true.1 casedLetters_plain r member) first last
    rw [isIdentifierStart, letter, plain, Bool.not_false, Bool.and_true, Bool.or_true, Bool.true_or]

theorem isIdentifierStart_of_cased_self {c : Char}
    (cased : casedStarts.covers c.toNat c.toNat = true) : isIdentifierStart c = true :=
  isIdentifierStart_of_cased cased (Nat.le_refl _) (Nat.le_refl _)

/-! The characters that become several. -/

/-- The identifiers that the expansions lead to, told by their code points. -/
def spellsIdentifier : List Char → Bool
  | [] => false
  | c :: cs => casedStarts.covers c.toNat c.toNat &&
      cs.all fun d =>
        casedStarts.covers d.toNat d.toNat || continueOnlyRanges.covers d.toNat d.toNat

theorem isIdentifier_of_spellsIdentifier {cs : List Char} (spells : spellsIdentifier cs = true) :
    isIdentifier cs = true := by
  cases cs with
  | nil => cases spells
  | cons c cs =>
    simp only [spellsIdentifier, Bool.and_eq_true, List.all_eq_true, Bool.or_eq_true] at spells
    obtain ⟨first, rest⟩ := spells
    rw [isIdentifier, isIdentifierStart_of_cased_self first, Bool.true_and, List.all_eq_true]
    intro d member
    rcases rest d member with start | goes_on
    · exact isIdentifierContinue_of_start (isIdentifierStart_of_cased_self start)
    · rw [isIdentifierContinue, Ranges.mem_of_covers goes_on (Nat.le_refl _) (Nat.le_refl _),
        Bool.or_true]

theorem expansions_spell : (caseExpansions.all fun e =>
    casedStarts.covers e.1 e.1 && spellsIdentifier e.2) = true := by decide +kernel

theorem isIdentifier_of_expansion {c : Char} {cs : List Char}
    (expands : caseExpansions.lookup c.toNat = some cs) :
    isIdentifierStart c = true ∧ isIdentifier cs = true := by
  obtain ⟨before, after, table, _⟩ := List.lookup_eq_some_iff.1 expands
  have member : (c.toNat, cs) ∈ caseExpansions :=
    table ▸ List.mem_append_right before List.mem_cons_self
  have checked := List.all_eq_true.1 expansions_spell _ member
  rw [Bool.and_eq_true] at checked
  exact ⟨isIdentifierStart_of_cased_self checked.1, isIdentifier_of_spellsIdentifier checked.2⟩

/-! The characters that become one other character. -/

namespace CaseRun

def target (r : CaseRun) (n : Nat) : Nat := (n + r.shift).toNat

def points (r : CaseRun) : List Nat :=
  (List.range' r.first (r.last + 1 - r.first)).filter r.covers

/-- The characters of the run are raised to such that start an identifier: all of these in one
interval, or each in some. -/
def raisesToStarts (r : CaseRun) : Bool :=
  (casedStarts.covers (r.target r.first) (r.target r.last) ||
      r.points.all fun n => casedStarts.covers (r.target n) (r.target n)) &&
    ((r.target r.last).blt 0xD800 ||
      Nat.blt 0xDFFF (r.target r.first) && (r.target r.last).blt 0x110000)

/-- No name keeps a character of the run. -/
def isUnkept (r : CaseRun) : Bool :=
  letterRanges.avoids r.first r.last && numericRanges.avoids r.first r.last && Nat.blt 0x5F r.first

theorem covers_iff (r : CaseRun) (n : Nat) :
    r.covers n = true ↔ r.first ≤ n ∧ n ≤ r.last ∧ (n - r.first) % r.step = 0 := by
  simp only [covers, Bool.and_eq_true, decide_eq_true_eq, beq_iff_eq, and_assoc]

theorem mem_points {r : CaseRun} {n : Nat} (covered : r.covers n = true) : n ∈ r.points := by
  obtain ⟨first, last, _⟩ := (r.covers_iff n).1 covered
  exact List.mem_filter.2 ⟨List.mem_range'_1.2 ⟨first, by omega⟩, covered⟩

theorem toNat_raise {r : CaseRun} {n : Nat} (valid : (r.target n).isValidChar) :
    (r.raise n).toNat = r.target n := by
  have raised : r.raise n = Char.ofNatAux (r.target n) valid := dif_pos valid
  rw [raised]
  rfl

theorem isIdentifierStart_raise {r : CaseRun} (raises : r.raisesToStarts = true) {n : Nat}
    (covered : r.covers n = true) : isIdentifierStart (r.raise n) = true := by
  obtain ⟨first, last, _⟩ := (r.covers_iff n).1 covered
  have above : r.target r.first ≤ r.target n := by unfold target; omega
  have below : r.target n ≤ r.target r.last := by unfold target; omega
  simp only [raisesToStarts, Bool.and_eq_true, Bool.or_eq_true, Nat.blt_eq, List.all_eq_true]
    at raises
  obtain ⟨starts, valid⟩ := raises
  have value : (r.raise n).toNat = r.target n := by
    apply toNat_raise
    unfold Nat.isValidChar
    omega
  rcases starts with together | each
  · exact isIdentifierStart_of_cased together (value ▸ above) (value ▸ below)
  · exact isIdentifierStart_of_cased (each n (mem_points covered)) (Nat.le_of_eq value.symm)
      (Nat.le_of_eq value)

end CaseRun

theorem runs_keep_starts : (caseRuns.all fun r =>
    casedStarts.covers r.first r.last && r.raisesToStarts || r.isUnkept) = true := by decide +kernel

end Text

namespace Identifier

open Text

theorem isIdentifierStart_of_run {c : Char} (kept : staysInName c = true) {r : CaseRun}
    (member : r ∈ caseRuns) (covered : r.covers c.toNat = true) :
    isIdentifierStart c = true ∧ isIdentifierStart (r.raise c.toNat) = true := by
  obtain ⟨above, below, _⟩ := (r.covers_iff c.toNat).1 covered
  have checked := List.all_eq_true.1 runs_keep_starts r member
  rw [Bool.or_eq_true, Bool.and_eq_true] at checked
  rcases checked with ⟨starts, raises⟩ | unkept
  · exact ⟨isIdentifierStart_of_cased starts above below,
      CaseRun.isIdentifierStart_raise raises covered⟩
  · -- such a run holds small signs only, and cleaning has dropped them
    simp only [CaseRun.isUnkept, Bool.and_eq_true, Nat.blt_eq] at unkept
    have letter : isLetter c = false := Ranges.not_mem_of_avoids unkept.1.1 above below
    have numeric : isNumeric c = false := Ranges.not_mem_of_avoids unkept.1.2 above below
    simp only [staysInName, letter, numeric, Bool.false_or, beq_iff_eq] at kept
    subst kept
    exact absurd above (Nat.not_le.2 unkept.2)

/-- What a name keeps is its own uppercase, or else it starts an identifier and its uppercase is
one. -/
theorem upperChar_kept {c : Char} (kept : staysInName c = true) :
    upperChar c = [c] ∨ isIdentifierStart c = true ∧ isIdentifier (upperChar c) = true := by
  unfold upperChar
  cases expands : caseExpansions.lookup c.toNat with
  | some cs => exact Or.inr (isIdentifier_of_expansion expands)
  | none =>
    cases found : caseRuns.find? (·.covers c.toNat) with
    | none => exact Or.inl rfl
    | some r =>
      have starts := isIdentifierStart_of_run kept (List.mem_of_find?_eq_some found)
        (List.find?_some (p := fun r : CaseRun => r.covers c.toNat) found)
      exact Or.inr ⟨starts.1, by simp [isIdentifier, starts.2]⟩

end Identifier

end NamespacePlan
