import Mathlib.Data.List.TakeWhile
import Mathlib.Data.UInt
import NamespacePlan.Text.Utf8

/-! Bytes that are read as a text are those the text is written with: reading fails exactly for bytes
that no text is written with. -/
namespace NamespacePlan.Text.Utf8

theorem toList_loop (bs : ByteArray) (i : Nat) (r : List UInt8) :
    ByteArray.toList.loop bs i r = r.reverse ++ bs.data.toList.drop i := by
  fun_induction ByteArray.toList.loop bs i r with
  | case1 i r inside ih =>
    have bound : i < bs.data.toList.length := by simpa using inside
    have here : bs.get! i = bs.data.toList[i] := by
      change bs.data[i]! = _
      rw [getElem!_pos bs.data i (by simpa using bound), Array.getElem_toList]
    rw [ih, List.drop_eq_getElem_cons bound, here]
    simp
  | case2 i r outside =>
    rw [List.drop_eq_nil_of_le (by simpa using Nat.le_of_not_lt outside)]
    simp

/-- The bytes of a text are those of its characters. -/
theorem toList_toUTF8 (s : String) :
    s.toUTF8.toList = s.toList.flatMap String.utf8EncodeChar := by
  have bytes : s.toByteArray = (s.toList.flatMap String.utf8EncodeChar).toByteArray :=
    String.utf8Encode_toList.symm
  rw [String.toUTF8_eq_toByteArray, bytes, ByteArray.toList, toList_loop,
    List.toList_data_toByteArray]
  rfl

/-! The bytes behind the first one. -/

theorem continuation_of_all {low high d : UInt8} {ds : List UInt8} (first : low ≤ d ∧ d ≤ high)
    (others : ∀ e ∈ ds, isContinuation e = true) (tail : List UInt8) :
    continuation (ds.length + 1) low high (d :: (ds ++ tail)) = d :: ds := by
  unfold continuation
  simp only [first, and_self, if_true, List.take_left]
  rw [List.takeWhile_eq_self_iff.2 others]

theorem exists_of_continuation {count : Nat} {low high : UInt8} {rest : List UInt8}
    (full : (continuation (count + 1) low high rest).length = count + 1) :
    ∃ d ds tail, rest = d :: (ds ++ tail) ∧ continuation (count + 1) low high rest = d :: ds ∧
      ds.length = count ∧ (∀ e ∈ ds, isContinuation e = true) ∧ low ≤ d ∧ d ≤ high := by
  cases rest with
  | nil => cases full
  | cons d rest =>
    simp only [continuation] at full ⊢
    by_cases first : low ≤ d ∧ d ≤ high
    · simp only [first, and_self, if_true, List.length_cons, Nat.add_right_cancel_iff] at full ⊢
      have whole : (rest.take count).takeWhile isContinuation = rest.take count := by
        apply (List.takeWhile_prefix _).eq_of_length
        have shorter := (List.takeWhile_prefix (l := rest.take count) isContinuation).length_le
        have bound := List.length_take_le count rest
        omega
      refine ⟨d, rest.take count, rest.drop count, by rw [List.take_append_drop], ?_, ?_,
        List.takeWhile_eq_self_iff.1 whole, first⟩
      · rw [whole]
      · rw [← whole, full]
    · simp [first] at full

theorem isContinuation_iff (b : UInt8) :
    isContinuation b = true ↔ 128 ≤ b.toNat ∧ b.toNat ≤ 191 := by
  simp [isContinuation, UInt8.le_iff_toNat_le]

/-! One character. -/

/-- The bytes that can be second behind a first one. Behind four of them there are fewer, so that no
character has a longer form than it needs, none is half of a pair, and none lies beyond the last. -/
structure Second (b d : UInt8) : Prop where
  least : 128 ≤ d.toNat
  most : d.toNat ≤ 191
  short : b.toNat = 224 → 160 ≤ d.toNat
  whole : b.toNat = 237 → d.toNat ≤ 159
  long : b.toNat = 240 → 144 ≤ d.toNat
  last : b.toNat = 244 → d.toNat ≤ 143

/-- How many bytes follow a first byte. -/
def Follows (b : UInt8) (count : Nat) : Prop :=
  194 ≤ b.toNat ∧ b.toNat ≤ 223 ∧ count = 1 ∨ 224 ≤ b.toNat ∧ b.toNat ≤ 239 ∧ count = 2 ∨
    240 ≤ b.toNat ∧ b.toNat ≤ 244 ∧ count = 3

theorem shape?_cases {b : UInt8} {count : Nat} {low high : UInt8}
    (shape : shape? b = some (count, low, high)) :
    Follows b count ∧ ∀ d, low ≤ d ∧ d ≤ high ↔ Second b d := by
  unfold shape? at shape
  simp only [UInt8.le_iff_toNat_le, ← UInt8.toNat_inj] at shape ⊢
  repeat' split at shape
  all_goals cases shape
  all_goals
    simp only [UInt8.reduceToNat] at *
    refine ⟨by unfold Follows; omega, fun d => ⟨fun h => ?_, fun h => ?_⟩⟩
    · constructor <;> omega
    · have bounds := h.least
      have bounds' := h.most
      have first := h.short
      have second := h.whole
      have third := h.long
      have fourth := h.last
      omega

theorem exists_shape {b : UInt8} {count : Nat} (follows : Follows b count) :
    ∃ low high, shape? b = some (count, low, high) := by
  cases shape : shape? b with
  | none =>
    unfold shape? at shape
    simp only [UInt8.le_iff_toNat_le, ← UInt8.toNat_inj, UInt8.reduceToNat] at shape
    unfold Follows at follows
    repeat' split at shape
    all_goals first | omega | cases shape
  | some form =>
    obtain ⟨count', low, high⟩ := form
    obtain ⟨same, _⟩ := shape?_cases shape
    have equal : count' = count := by
      unfold Follows at same follows
      omega
    exact ⟨low, high, by rw [equal]⟩

theorem toNat_ofNat_char {n : Nat} (valid : n.isValidChar) : (Char.ofNat n).val.toNat = n := by
  unfold Char.ofNat
  rw [dif_pos valid]
  rfl

/-! The forms of a character. Its number, and the bytes. -/

theorem ofNat_eq_byte {n : Nat} {b : UInt8} (same : n = b.toNat) : UInt8.ofNat n = b := by
  rw [same, UInt8.ofNat_toNat]

section Forms

variable {c : Char} {b d e f : UInt8}

theorem encode_one (value : c.val.toNat = b.toNat) (small : b.toNat ≤ 127) :
    String.utf8EncodeChar c = [b] := by
  simp only [String.utf8EncodeChar, value, small, if_true, UInt8.ofNat_toNat]

theorem encode_two (follows : Follows b 1) (second : Second b d)
    (value : c.val.toNat = b.toNat % 32 * 64 + (d.toNat - 128)) :
    String.utf8EncodeChar c = [b, d] := by
  have least := second.least
  have most := second.most
  unfold Follows at follows
  rw [String.utf8EncodeChar.eq_1]
  generalize c.val.toNat = v at value
  have first : UInt8.ofNat (v / 64 % 32 + 192) = b := ofNat_eq_byte (by omega)
  have last : UInt8.ofNat (v % 64 + 128) = d := ofNat_eq_byte (by omega)
  rw [if_neg (by omega), if_pos (by omega), first, last]

theorem encode_three (follows : Follows b 2) (second : Second b d)
    (third : 128 ≤ e.toNat ∧ e.toNat ≤ 191)
    (value : c.val.toNat = (b.toNat % 16 * 64 + (d.toNat - 128)) * 64 + (e.toNat - 128)) :
    String.utf8EncodeChar c = [b, d, e] := by
  have least := second.least
  have most := second.most
  have short := second.short
  unfold Follows at follows
  rw [String.utf8EncodeChar.eq_1]
  generalize c.val.toNat = v at value
  have first : UInt8.ofNat (v / 4096 % 16 + 224) = b := ofNat_eq_byte (by omega)
  have middle : UInt8.ofNat (v / 64 % 64 + 128) = d := ofNat_eq_byte (by omega)
  have last : UInt8.ofNat (v % 64 + 128) = e := ofNat_eq_byte (by omega)
  rw [if_neg (by omega), if_neg (by omega), if_pos (by omega), first, middle, last]

theorem encode_four (follows : Follows b 3) (second : Second b d)
    (third : 128 ≤ e.toNat ∧ e.toNat ≤ 191) (fourth : 128 ≤ f.toNat ∧ f.toNat ≤ 191)
    (value : c.val.toNat = ((b.toNat % 8 * 64 + (d.toNat - 128)) * 64 + (e.toNat - 128)) * 64 +
      (f.toNat - 128)) :
    String.utf8EncodeChar c = [b, d, e, f] := by
  have least := second.least
  have most := second.most
  have long := second.long
  unfold Follows at follows
  rw [String.utf8EncodeChar.eq_1]
  generalize c.val.toNat = v at value
  have first : UInt8.ofNat (v / 262144 % 8 + 240) = b := ofNat_eq_byte (by omega)
  have inner : UInt8.ofNat (v / 4096 % 64 + 128) = d := ofNat_eq_byte (by omega)
  have middle : UInt8.ofNat (v / 64 % 64 + 128) = e := ofNat_eq_byte (by omega)
  have last : UInt8.ofNat (v % 64 + 128) = f := ofNat_eq_byte (by omega)
  rw [if_neg (by omega), if_neg (by omega), if_neg (by omega), first, inner, middle, last]

/-- The number of a character that is joined from bytes. -/
theorem join_value {bits : Nat} {bs : List UInt8}
    (valid : (bs.foldl (fun n b => n * 64 + (b.toNat - 0x80)) bits).isValidChar) :
    (join bits bs).val.toNat = bs.foldl (fun n b => n * 64 + (b.toNat - 0x80)) bits :=
  toNat_ofNat_char valid

/-- Bytes that continue a first one are what their character is written with. -/
theorem encode_join {count : Nat} (follows : Follows b count) {ds : List UInt8}
    (length : ds.length + 1 = count) (second : Second b d)
    (others : ∀ e ∈ ds, isContinuation e = true) :
    String.utf8EncodeChar (join (leadBits count b) (d :: ds)) = b :: d :: ds := by
  have least := second.least
  have most := second.most
  have bounds := follows
  unfold Follows at bounds
  match ds with
  | [] =>
    obtain rfl : count = 1 := length.symm
    apply encode_two follows second
    apply join_value
    change b.toNat % 32 * 64 + (d.toNat - 128) < 0xd800 ∨ _
    omega
  | [e] =>
    obtain rfl : count = 2 := length.symm
    have third := (isContinuation_iff e).1 (others e (by simp))
    have whole := second.whole
    apply encode_three follows second third
    apply join_value
    change (b.toNat % 16 * 64 + (d.toNat - 128)) * 64 + (e.toNat - 128) < 0xd800 ∨
      0xdfff < (b.toNat % 16 * 64 + (d.toNat - 128)) * 64 + (e.toNat - 128) ∧
        (b.toNat % 16 * 64 + (d.toNat - 128)) * 64 + (e.toNat - 128) < 0x110000
    omega
  | [e, f] =>
    obtain rfl : count = 3 := length.symm
    have third := (isContinuation_iff e).1 (others e (by simp))
    have fourth := (isContinuation_iff f).1 (others f (by simp))
    have long := second.long
    have last := second.last
    apply encode_four follows second third fourth
    apply join_value
    right
    change 0xdfff < ((b.toNat % 8 * 64 + (d.toNat - 128)) * 64 + (e.toNat - 128)) * 64 +
        (f.toNat - 128) ∧
      ((b.toNat % 8 * 64 + (d.toNat - 128)) * 64 + (e.toNat - 128)) * 64 + (f.toNat - 128) < 0x110000
    omega
  | e :: f :: g :: rest =>
    simp only [List.length_cons] at length
    omega

end Forms

/-- What is read as a character is what the character is written with. -/
theorem exists_of_next {b : UInt8} {rest : List UInt8} {c : Char} {width : Nat}
    (read : next b rest = .ok (c, width)) : ∃ more tail, rest = more ++ tail ∧
      String.utf8EncodeChar c = b :: more ∧ width = more.length + 1 := by
  unfold next at read
  split at read
  · rename_i small
    cases read
    simp only [UInt8.lt_iff_toNat_lt, UInt8.reduceToNat] at small
    refine ⟨[], rest, rfl, encode_one (toNat_ofNat_char (Or.inl ?_)) (by omega), rfl⟩
    omega
  · split at read
    · cases read
    · rename_i count low high shape
      obtain ⟨follows, seconds⟩ := shape?_cases shape
      obtain ⟨n, rfl⟩ : ∃ n, count = n + 1 := by
        unfold Follows at follows
        exact ⟨count - 1, by omega⟩
      dsimp only at read
      split at read
      · rename_i full
        obtain ⟨d, ds, tail, rfl, more, length, others, second⟩ := exists_of_continuation full
        rw [more] at read
        cases read
        refine ⟨d :: ds, tail, rfl, ?_, by simp [length]⟩
        exact encode_join follows (by rw [length]) ((seconds d).1 second) others
      · cases read

theorem toNat_ofNat_byte {n : Nat} (small : n < 256) : (UInt8.ofNat n).toNat = n := by
  rw [UInt8.toNat_ofNat']
  exact Nat.mod_eq_of_lt small

theorem isContinuation_ofNat (n : Nat) : isContinuation (UInt8.ofNat (n % 64 + 128)) = true := by
  rw [isContinuation_iff, toNat_ofNat_byte (by omega)]
  omega

/-- A character beyond the first 128 is joined from a first byte and the bytes that continue it. -/
theorem exists_form {c : Char} (large : 127 < c.toNat) : ∃ b d ds, Follows b (ds.length + 1) ∧
    Second b d ∧ (∀ e ∈ ds, isContinuation e = true) ∧
    join (leadBits (ds.length + 1) b) (d :: ds) = c := by
  have valid : c.toNat < 0xd800 ∨ 0xdfff < c.toNat ∧ c.toNat < 0x110000 := c.valid
  have same : ∀ {bits : Nat} {bs : List UInt8},
      bs.foldl (fun n b => n * 64 + (b.toNat - 0x80)) bits = c.toNat → join bits bs = c := by
    intro bits bs value
    rw [join, value, Char.ofNat_toNat]
  generalize c.toNat = v at large valid same
  by_cases two : v ≤ 2047
  · have first := toNat_ofNat_byte (n := v / 64 + 192) (by omega)
    have follows : Follows (.ofNat (v / 64 + 192)) 1 := by
      unfold Follows
      rw [first]
      omega
    have second := toNat_ofNat_byte (n := v % 64 + 128) (by omega)
    refine ⟨.ofNat (v / 64 + 192), .ofNat (v % 64 + 128), [], follows, ?_, by simp, same ?_⟩
    · constructor <;> rw [second] <;> omega
    · change (UInt8.ofNat (v / 64 + 192)).toNat % 32 * 64 +
        ((UInt8.ofNat (v % 64 + 128)).toNat - 128) = v
      rw [first, second]
      omega
  · by_cases three : v ≤ 65535
    · have first := toNat_ofNat_byte (n := v / 4096 + 224) (by omega)
      have follows : Follows (.ofNat (v / 4096 + 224)) 2 := by
        unfold Follows
        rw [first]
        omega
      have second := toNat_ofNat_byte (n := v / 64 % 64 + 128) (by omega)
      have third := toNat_ofNat_byte (n := v % 64 + 128) (by omega)
      refine ⟨.ofNat (v / 4096 + 224), .ofNat (v / 64 % 64 + 128), [.ofNat (v % 64 + 128)], follows,
        ?_, ?_, same ?_⟩
      · constructor <;> rw [second] <;> omega
      · simp only [List.forall_mem_cons, isContinuation_ofNat, List.not_mem_nil, false_implies,
          implies_true, and_self]
      · change ((UInt8.ofNat (v / 4096 + 224)).toNat % 16 * 64 +
          ((UInt8.ofNat (v / 64 % 64 + 128)).toNat - 128)) * 64 +
            ((UInt8.ofNat (v % 64 + 128)).toNat - 128) = v
        rw [first, second, third]
        omega
    · have first := toNat_ofNat_byte (n := v / 262144 + 240) (by omega)
      have follows : Follows (.ofNat (v / 262144 + 240)) 3 := by
        unfold Follows
        rw [first]
        omega
      have second := toNat_ofNat_byte (n := v / 4096 % 64 + 128) (by omega)
      have third := toNat_ofNat_byte (n := v / 64 % 64 + 128) (by omega)
      have fourth := toNat_ofNat_byte (n := v % 64 + 128) (by omega)
      refine ⟨.ofNat (v / 262144 + 240), .ofNat (v / 4096 % 64 + 128),
        [.ofNat (v / 64 % 64 + 128), .ofNat (v % 64 + 128)], follows, ?_, ?_, same ?_⟩
      · constructor <;> rw [second] <;> omega
      · simp only [List.forall_mem_cons, isContinuation_ofNat, List.not_mem_nil, false_implies,
          implies_true, and_self]
      · change (((UInt8.ofNat (v / 262144 + 240)).toNat % 8 * 64 +
          ((UInt8.ofNat (v / 4096 % 64 + 128)).toNat - 128)) * 64 +
            ((UInt8.ofNat (v / 64 % 64 + 128)).toNat - 128)) * 64 +
              ((UInt8.ofNat (v % 64 + 128)).toNat - 128) = v
        rw [first, second, third, fourth]
        omega

/-- What a character is written with is read as the character. -/
theorem exists_next (c : Char) : ∃ b more, String.utf8EncodeChar c = b :: more ∧
    ∀ tail, next b (more ++ tail) = .ok (c, more.length + 1) := by
  by_cases small : c.toNat ≤ 127
  · have value := toNat_ofNat_byte (n := c.toNat) (by omega)
    refine ⟨.ofNat c.toNat, [], encode_one value.symm (by omega), fun tail => ?_⟩
    have below : UInt8.ofNat c.toNat < 0x80 := by
      simp only [UInt8.lt_iff_toNat_lt, UInt8.reduceToNat]
      omega
    rw [next, if_pos below, value, Char.ofNat_toNat]
    rfl
  · obtain ⟨b, d, ds, follows, second, others, same⟩ := exists_form (c := c) (by omega)
    have written := encode_join follows rfl second others
    rw [same] at written
    refine ⟨b, d :: ds, written, fun tail => ?_⟩
    obtain ⟨low, high, shape⟩ := exists_shape follows
    have bounds := ((shape?_cases shape).2 d).2 second
    have above : ¬ b < 0x80 := by
      unfold Follows at follows
      simp only [UInt8.lt_iff_toNat_lt, UInt8.reduceToNat]
      omega
    have more := continuation_of_all bounds others tail
    rw [next, if_neg above, shape]
    simp only [List.cons_append, more, List.length_cons, if_true, same]

/-! All characters. -/

theorem decodeFrom_skip (offset : Nat) (more bs : List UInt8) :
    decodeFrom offset more.length (more ++ bs) = decodeFrom (offset + more.length) 0 bs := by
  induction more generalizing offset with
  | nil => rfl
  | cons b more ih =>
    rw [List.cons_append, List.length_cons, decodeFrom, ih, Nat.add_assoc, Nat.add_comm 1]

theorem decodeFrom_encode (offset : Nat) (cs : List Char) :
    decodeFrom offset 0 (cs.flatMap String.utf8EncodeChar) = .ok cs := by
  induction cs generalizing offset with
  | nil => rfl
  | cons c cs ih =>
    obtain ⟨b, more, written, read⟩ := exists_next c
    rw [List.flatMap_cons, written, List.cons_append, decodeFrom, read]
    simp only [Nat.add_sub_cancel, decodeFrom_skip, ih]
    rfl

theorem drop_eq_of_decodeFrom {offset skip : Nat} {bs : List UInt8} {cs : List Char}
    (read : decodeFrom offset skip bs = .ok cs) :
    bs.drop skip = cs.flatMap String.utf8EncodeChar := by
  induction bs generalizing offset skip cs with
  | nil =>
    cases read
    exact List.drop_nil
  | cons b rest ih =>
    cases skip with
    | succ n => exact ih read
    | zero =>
      rw [decodeFrom] at read
      split at read
      · cases read
      · rename_i c width first
        cases later : decodeFrom (offset + 1) (width - 1) rest with
        | error f =>
          rw [later] at read
          cases read
        | ok ds =>
          rw [later] at read
          cases read
          obtain ⟨more, tail, rfl, written, rfl⟩ := exists_of_next first
          have behind := ih later
          rw [Nat.add_sub_cancel, List.drop_left] at behind
          rw [List.drop_zero, List.flatMap_cons, written, ← behind, List.cons_append]

/-- Bytes are read as the characters they are written with, and as no others. -/
theorem decode_eq_ok_iff {bs : List UInt8} {cs : List Char} :
    decode bs = .ok cs ↔ bs = (String.ofList cs).toUTF8.toList := by
  rw [toList_toUTF8, String.toList_ofList]
  constructor
  · intro read
    have behind : bs.drop 0 = _ := drop_eq_of_decodeFrom read
    exact behind
  · rintro rfl
    exact decodeFrom_encode 0 cs

/-- Bytes that cannot be read are those of no text. -/
theorem decode_fails_iff {bs : List UInt8} :
    (∃ f, decode bs = .error f) ↔ ∀ s : String, s.toUTF8.toList ≠ bs := by
  constructor
  · rintro ⟨f, failed⟩ s rfl
    have read : decode s.toUTF8.toList = .ok s.toList :=
      decode_eq_ok_iff.2 (by rw [String.ofList_toList])
    cases failed.symm.trans read
  · intro none
    cases read : decode bs with
    | error f => exact ⟨f, rfl⟩
    | ok cs => exact absurd (decode_eq_ok_iff.1 read).symm (none _)

end NamespacePlan.Text.Utf8
