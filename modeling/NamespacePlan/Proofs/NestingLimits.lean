import NamespacePlan.Proofs.SettingsFaults

/-! A limit on the nesting of JSON. What is read within a limit is what is read without one, unless the
reading stops over its depth. -/
namespace NamespacePlan

namespace Json

/-- Two results are the same, or the first reading has stopped over its depth. -/
inductive UpToDepth {α : Type} : Except Error α → Except Error α → Prop
  | same (x : Except Error α) : UpToDepth x x
  | deep (object : Bool) (left : Nat) (y : Except Error α) :
      UpToDepth (.error ⟨.tooDeep object, left⟩) y

theorem UpToDepth.map {α β : Type} {x y : Step α} (alike : UpToDepth x y) (f : α → β) :
    UpToDepth (x.map fun r => (f r.1, r.2)) (y.map fun r => (f r.1, r.2)) := by
  cases alike with
  | same => exact .same _
  | deep object left => exact .deep object left _

variable {nesting : Option Nat} {fuel : Nat}

section Nested

variable (values : ∀ cs, UpToDepth (value nesting fuel cs) (value none fuel cs))

include values

theorem upToDepth_items_succ
    (lists : ∀ cs, UpToDepth (items nesting fuel cs) (items none fuel cs)) (cs : List Char) :
    UpToDepth (items nesting (fuel + 1) cs) (items none (fuel + 1) cs) := by
  have first := values cs
  unfold items
  generalize value nesting fuel cs = x, value none fuel cs = y at first ⊢
  cases first with
  | deep object left => exact .deep object left _
  | same =>
    cases x with
    | error e => exact .same _
    | ok p =>
      obtain ⟨v, rest⟩ := p
      dsimp only
      split
      · exact .same _
      · exact (lists _).map _
      · exact .same _

theorem upToDepth_members_succ
    (maps : ∀ cs, UpToDepth (members nesting fuel cs) (members none fuel cs)) (cs : List Char) :
    UpToDepth (members nesting (fuel + 1) cs) (members none (fuel + 1) cs) := by
  unfold members
  split
  · next inner =>
    cases stringValue inner with
    | error e => exact .same _
    | ok p =>
      obtain ⟨k, rest⟩ := p
      dsimp only
      split
      · next tail _ =>
        have second := values (skipBlanks tail)
        generalize value nesting fuel (skipBlanks tail) = x,
          value none fuel (skipBlanks tail) = y at second ⊢
        cases second with
        | deep object left => exact .deep object left _
        | same =>
          cases x with
          | error e => exact .same _
          | ok p =>
            obtain ⟨v, rest⟩ := p
            dsimp only
            split
            · exact .same _
            · exact (maps _).map _
            · exact .same _
      · exact .same _
  · exact .same _

end Nested

theorem upToDepth_enter {α : Type} {object : Bool} {cs : List Char} {body : Option Nat → Step α}
    (inside : ∀ inner, UpToDepth (body inner) (body none)) :
    UpToDepth (match enter object nesting cs with
      | .error e => .error e
      | .ok inner => body inner) (body none) := by
  cases nesting with
  | none => exact .same _
  | some n =>
    cases n with
    | zero => exact .deep object cs.length _
    | succ n => exact inside (some n)

theorem upToDepth_value_succ
    (lists : ∀ inner cs, UpToDepth (items inner fuel cs) (items none fuel cs))
    (maps : ∀ inner cs, UpToDepth (members inner fuel cs) (members none fuel cs))
    (nesting : Option Nat) (cs : List Char) :
    UpToDepth (value nesting (fuel + 1) cs) (value none (fuel + 1) cs) := by
  rw [value.eq_def, value.eq_def]
  split
  · exact .same _
  · rename_i before rest same
    cases same
    refine upToDepth_enter fun inner => ?_
    split
    · exact .same _
    · exact (lists _ _).map _
  · rename_i before rest same
    cases same
    refine upToDepth_enter fun inner => ?_
    split
    · exact .same _
    · exact (maps _ _).map fun es => Value.map (Value.mapOf es)
  · exact .same _

theorem upToDepth_value (nesting : Option Nat) (fuel : Nat) (cs : List Char) :
    UpToDepth (value nesting fuel cs) (value none fuel cs) := by
  have all : (∀ nesting cs, UpToDepth (value nesting fuel cs) (value none fuel cs)) ∧
      (∀ nesting cs, UpToDepth (items nesting fuel cs) (items none fuel cs)) ∧
      ∀ nesting cs, UpToDepth (members nesting fuel cs) (members none fuel cs) := by
    induction fuel with
    | zero =>
      refine ⟨fun nesting cs => ?_, fun nesting cs => ?_, fun nesting cs => ?_⟩
      · unfold value
        exact .same _
      · unfold items
        exact .same _
      · unfold members
        exact .same _
    | succ fuel ih =>
      obtain ⟨values, lists, maps⟩ := ih
      exact ⟨upToDepth_value_succ lists maps,
        fun nesting => upToDepth_items_succ (values nesting) (lists nesting),
        fun nesting => upToDepth_members_succ (values nesting) (maps nesting)⟩
  exact all.1 nesting cs

/-- A limit changes nothing about a text that is read within it. -/
theorem upToDepth_readWithin (nesting : Option Nat) (cs : List Char) :
    UpToDepth (readWithin nesting cs) (read cs) := by
  have whole := upToDepth_value nesting (2 * cs.length + 2) (skipBlanks cs)
  unfold read readWithin
  split
  · exact .same _
  · generalize value nesting (2 * cs.length + 2) (skipBlanks cs) = x,
      value none (2 * cs.length + 2) (skipBlanks cs) = y at whole ⊢
    cases whole with
    | same => exact .same _
    | deep object left => exact .deep object left _

end Json

namespace SettingsFile

/-- A JSON file is loaded within a limit as it is without one, or fails over its depth. -/
theorem loadWith_json_cases (r : Readers) (t : FileTree) {path : String}
    (json : isYaml path = false) :
    loadWith r t path = load t path ∨ ∃ object, loadWith r t path = .error (.tooDeepJson object) := by
  cases found : t.find? path with
  | none => exact .inl (by rw [load, loadWith, loadWith, found])
  | some n =>
    cases n with
    | directory entries => exact .inl (by rw [load, loadWith, loadWith, found])
    | file bytes =>
      rw [load, loadWith_of_file found, loadWith_of_file found, read_of_json json,
        read_of_json json]
      cases decoded : Text.Utf8.decode bytes with
      | error f =>
        rw [readJson_of_fault decoded, readJson_of_fault decoded]
        exact .inl rfl
      | ok cs =>
        have alike := Json.upToDepth_readWithin r.nesting (Text.plainLines cs)
        rw [readJson_of_text decoded, readJson_of_text decoded]
        change Json.UpToDepth _ (Json.readWithin none (Text.plainLines cs)) at alike
        generalize Json.readWithin r.nesting (Text.plainLines cs) = x,
          Json.readWithin none (Text.plainLines cs) = y at alike ⊢
        cases alike with
        | same => exact .inl rfl
        | deep object left => exact .inr ⟨object, rfl⟩

end SettingsFile

end NamespacePlan
