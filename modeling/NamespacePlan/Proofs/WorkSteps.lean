import Mathlib.Tactic.MkIffOfInductiveProp
import NamespacePlan.CommandLine.Run
import NamespacePlan.Proofs.FileWrites

/-! Steps of work. Opening, writing and printing are told by what they need, and by what they leave
where they end well and where they fail; work that is made up of steps is told by its steps. -/
namespace NamespacePlan.CommandLine

/-- The first character of a text that cannot be printed. -/
def Device.Refuses (d : Device) (text : String) (c : Char) : Prop :=
  (text.toList.find? fun c => !d.prints c) = some c

namespace Device

variable {d : Device} {text : String}

theorem Refuses.prints {c : Char} (refused : d.Refuses text c) : d.prints c = false := by
  simpa using List.find?_some refused

theorem not_refuses_free (text : String) (c : Char) : ¬({} : Device).Refuses text c :=
  fun refused => nomatch refused.prints

theorem exists_refuses {c : Char} (member : c ∈ text.toList) (mute : d.prints c = false) :
    ∃ first, d.Refuses text first := by
  unfold Refuses
  rw [← Option.isSome_iff_exists, List.find?_isSome]
  exact ⟨c, member, by simp [mute]⟩

end Device

namespace Work

variable {α β : Type} {x : Work α} {f : α → Work β} {w w' : World} {e : TaskError}

theorem bind_eq_ok_iff {b : β} :
    (x >>= f) w = .ok b w' ↔ ∃ a v, x w = .ok a v ∧ f a v = .ok b w' := by
  simp only [bind, EStateM.bind]
  cases x w with
  | error e v => simp
  | ok a v =>
    constructor
    · intro rest
      exact ⟨a, v, rfl, rest⟩
    · rintro ⟨_, _, ⟨⟩, rest⟩
      exact rest

theorem bind_eq_error_iff : (x >>= f) w = .error e w' ↔
    x w = .error e w' ∨ ∃ a v, x w = .ok a v ∧ f a v = .error e w' := by
  simp only [bind, EStateM.bind]
  cases x w with
  | error e v => simp
  | ok a v =>
    constructor
    · intro rest
      exact .inr ⟨a, v, rfl, rest⟩
    · rintro (⟨⟨⟩⟩ | ⟨_, _, ⟨⟩, rest⟩)
      exact rest

/-! What was reported. -/

theorem ofReported_eq_ok_iff {r : Reported TaskError α} {a : α} :
    ofReported r w = .ok a w' ↔ r.outcome = .ok a ∧ w' = w.reported r.events := by
  unfold ofReported
  cases r.outcome <;> simp [eq_comm]

theorem ofReported_eq_error_iff {r : Reported TaskError α} :
    ofReported r w = .error e w' ↔ r.outcome = .error e ∧ w' = w.reported r.events := by
  unfold ofReported
  cases r.outcome <;> simp [eq_comm]

/-! Files. -/

/-- Why a file cannot be opened. -/
@[mk_iff]
inductive Unwritable (t : FileTree) (path : String) : TaskError → Prop
  | nul (inside : '\x00' ∈ path.toList) : Unwritable t path .nullInPath
  | fault {f : FileFault} (free : '\x00' ∉ path.toList) (fault : t.writable path = .error f) :
      Unwritable t path (.unwritable path f)

theorem openFile_eq_ok_iff {path : String} {place : List String} :
    openFile path w = .ok place w' ↔ '\x00' ∉ path.toList ∧ w.tree.writable path = .ok place ∧
      w' = { w with tree := w.tree.put place [] } := by
  unfold openFile
  by_cases nul : '\x00' ∈ path.toList
  · simp [nul]
  · cases w.tree.writable path with
    | error f => simp [nul]
    | ok here =>
      simp only [List.contains_iff_mem, nul, if_false, EStateM.Result.ok.injEq, not_false_eq_true,
        true_and, Except.ok.injEq]
      constructor
      · rintro ⟨rfl, rfl⟩
        exact ⟨rfl, rfl⟩
      · rintro ⟨rfl, rfl⟩
        exact ⟨rfl, rfl⟩

/-- A file that cannot be opened is not emptied, and none is made. -/
theorem openFile_eq_error_iff {path : String} :
    openFile path w = .error e w' ↔ Unwritable w.tree path e ∧ w' = w := by
  unfold openFile
  rw [unwritable_iff]
  by_cases nul : '\x00' ∈ path.toList
  · simp [nul, eq_comm]
  · cases w.tree.writable path <;> simp [nul, eq_comm]

/-- A file is written whole if it has room. -/
theorem write_eq_ok_iff {d : Device} {place : List String} {text : String} {u : Unit} :
    write d place text w = .ok u w' ↔ (∀ room ∈ d.room, text.toUTF8.toList.length ≤ room) ∧
      w' = { w with tree := w.tree.put place text.toUTF8.toList } := by
  unfold write
  generalize text.toUTF8.toList = bytes
  cases d.room with
  | none => simp [eq_comm]
  | some room =>
    by_cases fits : bytes.length ≤ room
    · simp [fits, List.take_of_length_le fits, eq_comm]
    · simp [fits]

theorem write_eq_error_iff {d : Device} {place : List String} {text : String} :
    write d place text w = .error e w' ↔ ∃ room, d.room = some room ∧
      room < text.toUTF8.toList.length ∧ e = .noRoom ∧
      w' = { w with tree := w.tree.put place (text.toUTF8.toList.take room) } := by
  unfold write
  generalize text.toUTF8.toList = bytes
  cases d.room with
  | none => simp
  | some room =>
    by_cases fits : bytes.length ≤ room
    · simp [fits, Nat.not_lt.2 fits]
    · simp [fits, Nat.lt_of_not_le fits, eq_comm]

/-! Printing. -/

/-- A text is printed whole or not at all. -/
theorem print_eq_ok_iff {d : Device} {text : String} {u : Unit} : print d text w = .ok u w' ↔
    (∀ c, ¬d.Refuses text c) ∧ w' = { w with stdout := w.stdout ++ text } := by
  unfold print Device.Refuses
  cases text.toList.find? fun c => !d.prints c <;> simp [eq_comm]

theorem print_eq_error_iff {d : Device} {text : String} :
    print d text w = .error e w' ↔ ∃ c, d.Refuses text c ∧ e = .unprintable c ∧ w' = w := by
  unfold print Device.Refuses
  cases text.toList.find? fun c => !d.prints c <;> simp [eq_comm]

end Work

end NamespacePlan.CommandLine
