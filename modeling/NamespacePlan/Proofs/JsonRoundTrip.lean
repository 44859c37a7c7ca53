import NamespacePlan.Proofs.DatumValues
import NamespacePlan.Proofs.JsonStrings

/-! Data written as JSON and read back. The reader takes as much fuel as the text is long, skips what
sets the lines apart, and leaves what follows a value as it is. -/
namespace NamespacePlan

namespace Json

open Datum

/-! Between the values. -/

theorem skipBlanks_newline (depth : Nat) (cs : List Char) :
    skipBlanks (newline depth ++ cs) = skipBlanks cs := by
  apply List.dropWhile_append_of_pos
  intro c member
  rcases List.mem_cons.1 member with rfl | member
  · rfl
  · rw [List.eq_of_mem_replicate member]
    rfl

theorem skipBlanks_cons {c : Char} (shown : isBlank c = false) (cs : List Char) :
    skipBlanks (c :: cs) = c :: cs := by
  rw [skipBlanks, List.dropWhile_cons_of_neg (by rw [shown]; exact Bool.false_ne_true)]

/-- The first character of a text belongs to a value, not to the layout around it. -/
structure Opens (c : Char) : Prop where
  shown : isBlank c = false
  item : c ≠ ']'
  field : c ≠ '\x7d'
  mark : c ≠ '\ufeff'

instance (c : Char) : Decidable (Opens c) :=
  decidable_of_iff (isBlank c = false ∧ c ≠ ']' ∧ c ≠ '\x7d' ∧ c ≠ '\ufeff')
    ⟨fun ⟨shown, item, field, mark⟩ => ⟨shown, item, field, mark⟩,
      fun h => ⟨h.shown, h.item, h.field, h.mark⟩⟩

theorem exists_write (depth : Nat) (d : Datum) : ∃ c cs, write depth d = c :: cs ∧ Opens c := by
  cases d with
  | null => exact ⟨'n', _, rfl, by decide⟩
  | bool b =>
    cases b with
    | true => exact ⟨'t', _, rfl, by decide⟩
    | false => exact ⟨'f', _, rfl, by decide⟩
  | text s => exact ⟨'"', _, rfl, by decide⟩
  | list ds => cases ds <;> exact ⟨'[', _, rfl, by decide⟩
  | object fs => cases fs <;> exact ⟨'\x7b', _, rfl, by decide⟩

/-! Scalars. -/

theorem scalar_null (rest : List Char) :
    scalar ("null".toList ++ rest) = .ok (.null, rest) := by
  simp [scalar, words]

theorem scalar_bool (b : Bool) (rest : List Char) :
    scalar ((if b then "true".toList else "false".toList) ++ rest) = .ok (.bool b, rest) := by
  cases b <;> simp [scalar, words]

theorem scalar_string (s : String) (rest : List Char) :
    scalar (string s ++ rest) = .ok (.text s, rest) := by
  simp [scalar, words, string, stringValue_string]

theorem value_scalar {fuel : Nat} {c : Char} {cs : List Char} (list : c ≠ '[')
    (object : c ≠ '\x7b') : value none (fuel + 1) (c :: cs) = scalar (c :: cs) := by
  apply value.eq_4
  · intro rest same
    exact list (List.cons.inj same).1
  · intro rest same
    exact object (List.cons.inj same).1

/-! Collections, opened: their members are read where a value or a key begins. -/

theorem enter_none (object : Bool) (cs : List Char) : enter object none cs = .ok none := rfl

theorem value_list {fuel : Nat} {c : Char} (opens : Opens c) (depth : Nat) (cs : List Char) :
    value none (fuel + 1) ('[' :: newline depth ++ c :: cs) =
      (items none fuel (c :: cs)).map fun r => (.list r.1, r.2) := by
  rw [List.cons_append, value.eq_2, enter_none, skipBlanks_newline, skipBlanks_cons opens.shown]
  dsimp only
  split
  case h_1 same => exact absurd (List.cons.inj same).1 opens.item
  case h_2 => rfl

theorem value_object {fuel : Nat} {c : Char} (opens : Opens c) (depth : Nat) (cs : List Char) :
    value none (fuel + 1) ('\x7b' :: newline depth ++ c :: cs) =
      (members none fuel (c :: cs)).map fun r => (.map (Value.mapOf r.1), r.2) := by
  rw [List.cons_append, value.eq_3, enter_none, skipBlanks_newline, skipBlanks_cons opens.shown]
  dsimp only
  split
  case h_1 same => exact absurd (List.cons.inj same).1 opens.field
  case h_2 => rfl

theorem items_last {fuel : Nat} {cs rest : List Char} {v : Value} (depth : Nat)
    (first : value none fuel cs = .ok (v, newline depth ++ ']' :: rest)) :
    items none (fuel + 1) cs = .ok ([v], rest) := by
  rw [items.eq_2, first]
  simp only [skipBlanks_newline, skipBlanks_cons (c := ']') rfl]

theorem items_more {fuel : Nat} {cs rest : List Char} {v : Value} (depth : Nat) {c : Char}
    (opens : Opens c) (first : value none fuel cs = .ok (v, ',' :: (newline depth ++ c :: rest))) :
    items none (fuel + 1) cs = (items none fuel (c :: rest)).map fun r => (v :: r.1, r.2) := by
  rw [items.eq_2, first]
  simp only [skipBlanks_newline, skipBlanks_cons (c := ',') rfl, skipBlanks_cons opens.shown]

/-- The reading of an object behind one of its values. -/
def afterField (fuel : Nat) (field : Value × Value) (cs : List Char) :
    Step (List (Value × Value)) :=
  match skipBlanks cs with
  | '\x7d' :: rest => .ok ([field], rest)
  | ',' :: rest => (members none fuel (skipBlanks rest)).map fun r => (field :: r.1, r.2)
  | other => failAt .expectedComma other

/-- A key and the blank behind its colon are passed over on the way to the value. -/
theorem members_entry {fuel : Nat} (k : String) {c : Char} (opens : Opens c) {cs rest : List Char}
    {v : Value} (first : value none fuel (c :: cs) = .ok (v, rest)) :
    members none (fuel + 1) (string k ++ ':' :: ' ' :: c :: cs) = afterField fuel (.text k, v) rest := by
  have blank : skipBlanks (' ' :: c :: cs) = c :: cs := skipBlanks_cons opens.shown cs
  rw [string, List.cons_append, List.cons_append, members.eq_2]
  simp only [List.append_assoc, List.cons_append, List.nil_append, stringValue_string,
    skipBlanks_cons (c := ':') rfl, blank, first]
  rfl

theorem members_last {fuel : Nat} (k : String) {c : Char} (opens : Opens c) {cs rest : List Char}
    {v : Value} (depth : Nat)
    (first : value none fuel (c :: cs) = .ok (v, newline depth ++ '\x7d' :: rest)) :
    members none (fuel + 1) (string k ++ ':' :: ' ' :: c :: cs) = .ok ([(.text k, v)], rest) := by
  rw [members_entry k opens first]
  simp only [afterField, skipBlanks_newline, skipBlanks_cons (c := '\x7d') rfl]

theorem members_more {fuel : Nat} (k : String) {c : Char} (opens : Opens c) {cs rest : List Char}
    {v : Value} (depth : Nat) (j : String)
    (first : value none fuel (c :: cs) = .ok (v, ',' :: (newline depth ++ (string j ++ rest)))) :
    members none (fuel + 1) (string k ++ ':' :: ' ' :: c :: cs) =
      (members none fuel (string j ++ rest)).map fun r => ((.text k, v) :: r.1, r.2) := by
  have key : skipBlanks (string j ++ rest) = string j ++ rest := skipBlanks_cons rfl _
  rw [members_entry k opens first]
  simp only [afterField, skipBlanks_newline, skipBlanks_cons (c := ',') rfl, key]

/-! Collections, member by member. -/

/-- The text of the data is read back at any depth, whatever stands behind it, with as much fuel as
it is long. -/
def ReadBack (d : Datum) : Prop :=
  ∀ depth fuel rest, d.DistinctKeys → (write depth d).length ≤ fuel →
    value none fuel (write depth d ++ rest) = .ok (d.toValue, rest)

theorem items_write {d : Datum} {ds : List Datum} (reads : ∀ e ∈ d :: ds, ReadBack e)
    (distinct : AllDistinct (d :: ds)) (depth outer fuel : Nat)
    (enough : (write depth d ++ writeItems depth ds).length < fuel) (rest : List Char) :
    items none fuel (write depth d ++ (writeItems depth ds ++ (newline outer ++ ']' :: rest))) =
      .ok (toValues (d :: ds), rest) := by
  induction ds generalizing d fuel with
  | nil =>
    obtain ⟨fuel, rfl⟩ : ∃ n, fuel = n + 1 := ⟨fuel - 1, by omega⟩
    rw [writeItems, List.append_nil] at enough
    exact items_last outer (reads d List.mem_cons_self depth fuel _ distinct.1 (by omega))
  | cons e es ih =>
    obtain ⟨fuel, rfl⟩ : ∃ n, fuel = n + 1 := ⟨fuel - 1, by omega⟩
    simp only [writeItems, List.length_cons, List.length_append] at enough
    have tail := ih (fun x member => reads x (List.mem_cons_of_mem d member)) distinct.2 fuel
      (by rw [List.length_append]; omega)
    obtain ⟨c, cs, text, opens⟩ := exists_write depth e
    have head := reads d List.mem_cons_self depth fuel
      (',' :: (newline depth ++ c :: (cs ++ (writeItems depth es ++ (newline outer ++ ']' :: rest)))))
      distinct.1 (by omega)
    simp only [writeItems, text, List.cons_append, List.append_assoc] at tail ⊢
    rw [items_more depth opens head, tail]
    rfl

theorem members_write {k : String} {d : Datum} {fs : List (String × Datum)}
    (reads : ∀ f ∈ (k, d) :: fs, ReadBack f.2) (distinct : FieldsDistinct ((k, d) :: fs))
    (depth outer fuel : Nat)
    (enough : (write depth d ++ writeFields depth fs).length < fuel) (rest : List Char) :
    members none fuel (string k ++ ':' :: ' ' :: (write depth d ++ (writeFields depth fs ++
      (newline outer ++ '\x7d' :: rest)))) = .ok (toEntries ((k, d) :: fs), rest) := by
  induction fs generalizing k d fuel with
  | nil =>
    obtain ⟨fuel, rfl⟩ : ∃ n, fuel = n + 1 := ⟨fuel - 1, by omega⟩
    rw [writeFields, List.append_nil] at enough
    obtain ⟨c, cs, text, opens⟩ := exists_write depth d
    have first : ReadBack d := reads (k, d) List.mem_cons_self
    have head := first depth fuel (newline outer ++ '\x7d' :: rest) distinct.1 (by omega)
    simp only [writeFields, text, List.cons_append, List.nil_append] at head ⊢
    exact members_last k opens outer head
  | cons f es ih =>
    obtain ⟨j, e⟩ := f
    obtain ⟨fuel, rfl⟩ : ∃ n, fuel = n + 1 := ⟨fuel - 1, by omega⟩
    simp only [writeFields, List.length_cons, List.length_append] at enough
    have tail := ih (fun x member => reads x (List.mem_cons_of_mem _ member)) distinct.2 fuel
      (by rw [List.length_append]; omega)
    obtain ⟨c, cs, text, opens⟩ := exists_write depth d
    have first : ReadBack d := reads (k, d) List.mem_cons_self
    have head := first depth fuel
      (',' :: (newline depth ++ (string j ++ ':' :: ' ' :: (write depth e ++ (writeFields depth es ++
        (newline outer ++ '\x7d' :: rest)))))) distinct.1 (by omega)
    simp only [writeFields, text, List.cons_append, List.append_assoc, List.nil_append] at head ⊢
    rw [members_more k opens depth j head, tail]
    rfl

/-! Whole values. -/

theorem readBack_list {ds : List Datum} (reads : ∀ d ∈ ds, ReadBack d) : ReadBack (.list ds) := by
  intro depth fuel rest distinct enough
  cases ds with
  | nil =>
    obtain ⟨fuel, rfl⟩ : ∃ n, fuel = n + 1 := ⟨fuel - 1, by simp [write] at enough; omega⟩
    rfl
  | cons d ds =>
    simp only [write, newline, List.length_cons, List.length_append] at enough
    obtain ⟨fuel, rfl⟩ : ∃ n, fuel = n + 1 := ⟨fuel - 1, by omega⟩
    have inside := items_write reads distinct (depth + 1) depth fuel
      (by rw [List.length_append]; omega) rest
    obtain ⟨c, cs, text, opens⟩ := exists_write (depth + 1) d
    simp only [write, text, List.cons_append, List.append_assoc, List.nil_append] at inside ⊢
    rw [← List.cons_append, value_list opens, inside]
    rfl

theorem readBack_object {fs : List (String × Datum)} (reads : ∀ f ∈ fs, ReadBack f.2) :
    ReadBack (.object fs) := by
  intro depth fuel rest distinct enough
  cases fs with
  | nil =>
    obtain ⟨fuel, rfl⟩ : ∃ n, fuel = n + 1 := ⟨fuel - 1, by simp [write] at enough; omega⟩
    rfl
  | cons f fs =>
    obtain ⟨k, d⟩ := f
    simp only [write, newline, List.length_cons, List.length_append] at enough
    obtain ⟨fuel, rfl⟩ : ∃ n, fuel = n + 1 := ⟨fuel - 1, by omega⟩
    have inside := members_write reads distinct.2 (depth + 1) depth fuel
      (by rw [List.length_append]; omega) rest
    simp only [write, string, List.cons_append, List.append_assoc, List.nil_append] at inside ⊢
    rw [← List.cons_append, value_object ⟨rfl, by decide, by decide, by decide⟩, inside, Except.map,
      mapOf_toEntries distinct.1]
    rfl

theorem readBack_scalar {d : Datum} {v : Value} (depth : Nat) {c : Char} {cs : List Char}
    (text : write depth d = c :: cs) (list : c ≠ '[') (object : c ≠ '\x7b') {fuel : Nat}
    (enough : (write depth d).length ≤ fuel) {rest : List Char}
    (reads : scalar (write depth d ++ rest) = .ok (v, rest)) :
    value none fuel (write depth d ++ rest) = .ok (v, rest) := by
  rw [text, List.length_cons] at enough
  obtain ⟨fuel, rfl⟩ : ∃ n, fuel = n + 1 := ⟨fuel - 1, by omega⟩
  rw [text, List.cons_append] at reads ⊢
  rw [value_scalar list object, reads]

theorem readBack (d : Datum) : ReadBack d := by
  induction d using Datum.induct with
  | null =>
    intro depth fuel rest _ enough
    exact readBack_scalar depth rfl (by decide) (by decide) enough (scalar_null rest)
  | bool b =>
    intro depth fuel rest _ enough
    cases b with
    | true => exact readBack_scalar depth rfl (by decide) (by decide) enough (scalar_bool true rest)
    | false => exact readBack_scalar depth rfl (by decide) (by decide) enough (scalar_bool false rest)
  | text s =>
    intro depth fuel rest _ enough
    exact readBack_scalar depth rfl (by decide) (by decide) enough (scalar_string s rest)
  | list ds reads => exact readBack_list reads
  | object fs reads => exact readBack_object reads

/-- Data with distinct keys is read back from its JSON text, whatever blanks stand behind it. -/
theorem read_render_append {d : Datum} (distinct : d.DistinctKeys) {blanks : List Char}
    (blank : skipBlanks blanks = []) : read ((render d).toList ++ blanks) = .ok d.toValue := by
  obtain ⟨c, cs, text, opens⟩ := exists_write 0 d
  have start : skipBlanks (write 0 d ++ blanks) = write 0 d ++ blanks := by
    rw [text, List.cons_append, skipBlanks_cons opens.shown]
  have unmarked : (write 0 d ++ blanks).head? ≠ some '\ufeff' := by
    rw [text, List.cons_append, List.head?_cons]
    exact fun same => opens.mark (Option.some.inj same)
  have enough : (write 0 d).length ≤ 2 * (write 0 d ++ blanks).length + 2 := by
    rw [List.length_append]
    omega
  have whole := readBack d 0 _ blanks distinct enough
  rw [render, String.toList_ofList, read, readWithin, if_neg unmarked, start, whole]
  simp only [blank]

theorem read_render {d : Datum} (distinct : d.DistinctKeys) :
    read (render d).toList = .ok d.toValue := by
  have bare : skipBlanks [] = [] := rfl
  simpa using read_render_append distinct bare

/-! What is written is ASCII. -/

def Ascii (cs : List Char) : Prop := ∀ c ∈ cs, c.toNat < 128

instance (cs : List Char) : Decidable (Ascii cs) := List.decidableBAll _ cs

theorem Ascii.append {xs ys : List Char} (left : Ascii xs) (right : Ascii ys) : Ascii (xs ++ ys) := by
  intro c member
  rcases List.mem_append.1 member with h | h
  · exact left c h
  · exact right c h

theorem Ascii.cons {x : Char} {ys : List Char} (head : x.toNat < 128) (tail : Ascii ys) :
    Ascii (x :: ys) := by
  intro c member
  rcases List.mem_cons.1 member with rfl | h
  · exact head
  · exact tail c h

theorem ascii_nil : Ascii [] := fun _ member => nomatch member

theorem ascii_newline (depth : Nat) : Ascii (newline depth) := by
  refine .cons (by decide) fun c member => ?_
  rw [List.eq_of_mem_replicate member]
  decide

theorem ascii_writeItems (ds : List Datum) {depth : Nat}
    (each : ∀ d ∈ ds, Ascii (write depth d)) : Ascii (writeItems depth ds) := by
  induction ds with
  | nil => exact ascii_nil
  | cons d ds ih =>
    have rest := ih fun e member => each e (List.mem_cons_of_mem d member)
    rw [writeItems]
    exact ((Ascii.cons (by decide) (ascii_newline depth)).append
      (each d List.mem_cons_self)).append rest

theorem ascii_writeFields (fs : List (String × Datum)) {depth : Nat}
    (each : ∀ f ∈ fs, Ascii (write depth f.2)) : Ascii (writeFields depth fs) := by
  induction fs with
  | nil => exact ascii_nil
  | cons f fs ih =>
    obtain ⟨k, d⟩ := f
    have rest := ih fun g member => each g (List.mem_cons_of_mem _ member)
    have colon : Ascii [':', ' '] := .cons (by decide) (.cons (by decide) ascii_nil)
    rw [writeFields]
    exact ((((Ascii.cons (by decide) (ascii_newline depth)).append (string_ascii k)).append
      colon).append (each _ List.mem_cons_self)).append rest

theorem ascii_write (d : Datum) : ∀ depth, Ascii (write depth d) := by
  induction d using Datum.induct with
  | null =>
    have word : Ascii "null".toList := by decide
    exact fun _ => word
  | bool b =>
    have word : ∀ b : Bool, Ascii (if b then "true".toList else "false".toList) := by decide
    exact fun _ => word b
  | text s => exact fun _ => string_ascii s
  | list ds each =>
    intro depth
    cases ds with
    | nil =>
      have brackets : Ascii "[]".toList := by decide
      exact brackets
    | cons d ds =>
      have items := ascii_writeItems ds fun e member =>
        each e (List.mem_cons_of_mem d member) (depth + 1)
      rw [write]
      exact ((((Ascii.cons (by decide) (ascii_newline _)).append
        (each d List.mem_cons_self _)).append items).append (ascii_newline depth)).append
          (.cons (by decide) ascii_nil)
  | object fs each =>
    intro depth
    cases fs with
    | nil =>
      have braces : Ascii ['\x7b', '\x7d'] := by decide
      exact braces
    | cons f fs =>
      obtain ⟨k, d⟩ := f
      have fields := ascii_writeFields fs fun g member =>
        each g (List.mem_cons_of_mem _ member) (depth + 1)
      have colon : Ascii [':', ' '] := .cons (by decide) (.cons (by decide) ascii_nil)
      rw [write]
      exact ((((((Ascii.cons (by decide) (ascii_newline _)).append (string_ascii k)).append
        colon).append (each _ List.mem_cons_self _)).append fields).append
          (ascii_newline depth)).append (.cons (by decide) ascii_nil)

end Json

namespace Manifest

/-- The JSON text of a manifest is ASCII and reads back as the manifest. -/
theorem read_json_text (us : List PlannedUnit) (table : OrderedMap String String) (root : String)
    (optimize : Bool) :
    Json.read ((Manifest.of us table root optimize).text .json).toList =
        .ok (Manifest.of us table root optimize).toDatum.toValue ∧
      ∀ c ∈ ((Manifest.of us table root optimize).text .json).toList, c.toNat < 128 := by
  constructor
  · exact Json.read_render (distinctKeys_toDatum (nodup_keys_of us table root optimize))
  · rw [Manifest.text, Json.render, String.toList_ofList]
    exact Json.ascii_write _ 0

end Manifest

end NamespacePlan
