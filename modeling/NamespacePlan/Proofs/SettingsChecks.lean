import Mathlib.Data.List.Perm.Basic
import NamespacePlan.Proofs.PathTexts
import NamespacePlan.Settings

/-! Settings that are written as entries and read again. They are read if their texts are admitted, in
whatever order the entries stand, and what has been read is read again as it is. -/
namespace NamespacePlan

section Mapped

variable {ε δ α β : Type}

theorem map_eq_ok_iff {x : Except ε α} {f : α → β} {b : β} :
    x.map f = .ok b ↔ ∃ a, x = .ok a ∧ f a = b := by
  cases x <;> simp [Except.map]

theorem mapError_eq_ok_iff {x : Except ε α} {f : ε → δ} {a : α} :
    x.mapError f = .ok a ↔ x = .ok a := by
  cases x <;> simp [Except.mapError]

theorem mapError_eq_error_iff {x : Except ε α} {f : ε → δ} {d : δ} :
    x.mapError f = .error d ↔ ∃ e, x = .error e ∧ f e = d := by
  cases x <;> simp [Except.mapError]

end Mapped

/-! All fields together. -/

namespace FieldFault

variable {α : Type}

theorem gather_map_ok (as : List α) : gather (as.map .ok) = .ok as := by
  induction as with
  | nil => rfl
  | cons a as ih =>
    rw [List.map_cons]
    unfold gather
    rw [ih]

theorem map_ok_of_gather {rs : List (Except FieldFault α)} {as : List α}
    (gathered : gather rs = .ok as) : rs = as.map .ok := by
  induction rs generalizing as with
  | nil =>
    cases gathered
    rfl
  | cons r rs ih =>
    unfold gather at gathered
    split at gathered
    · next a bs rest =>
      cases gathered
      rw [List.map_cons, ih rest]
    · cases gathered
    · cases gathered
    · cases gathered

theorem exists_map_ok {rs : List (Except FieldFault α)} (all : ∀ r ∈ rs, ∃ a, r = .ok a) :
    ∃ as : List α, rs = as.map .ok := by
  induction rs with
  | nil => exact ⟨[], rfl⟩
  | cons r rs ih =>
    obtain ⟨a, rfl⟩ := all r List.mem_cons_self
    obtain ⟨as, rfl⟩ := ih fun r later => all r (List.mem_cons_of_mem _ later)
    exact ⟨a :: as, rfl⟩

theorem perm_of_map_ok {as bs : List α}
    (alike : (as.map (.ok : α → Except FieldFault α)).Perm (bs.map .ok)) : as.Perm bs := by
  have back : ∀ cs : List α, (cs.map (.ok : α → Except FieldFault α)).filterMap Except.toOption = cs := by
    intro cs
    rw [List.filterMap_map]
    exact List.filterMap_some
  rw [← back as, ← back bs]
  exact alike.filterMap _

end FieldFault

namespace Settings

/-- The root is a dotted name, and the home is some text. -/
structure Sound (s : Settings) : Prop where
  filled : s.root ≠ ""
  dotted : Identifier.isDotted s.root = true
  home : s.home ≠ ""

def tidied (s : Settings) : Settings := { s with schemaDir := s.schemaDir.map Path.tidy }

/-- What the entries of settings are read as. -/
def read (s : Settings) : List Setting :=
  [.root s.root, .optimize s.optimize, .strict s.strict, .schemaDir (s.schemaDir.map Path.tidy),
   .home s.home]

theorem foldl_read (s : Settings) : s.read.foldl put {} = s.tidied := rfl

theorem ofEntry_entries (s : Settings) : s.entries.map Setting.ofEntry =
    [((Setting.dottedName (.text s.root)).map .root).mapError (⟨[.name "root_namespace"], ·⟩),
     .ok (.optimize s.optimize), .ok (.strict s.strict),
     .ok (.schemaDir (s.schemaDir.map Path.tidy)),
     ((Setting.filledText (.text s.home)).map .home).mapError (⟨[.name "project_home"], ·⟩)] := by
  have directory : Setting.optionalPath ((s.schemaDir.map Value.text).getD .null) =
      .ok (s.schemaDir.map Path.tidy) := by
    cases s.schemaDir <;> rfl
  simp [entries, Setting.ofEntry, Setting.read, Value.asTruth, directory, Except.map, Except.mapError]

theorem filledText_eq_ok_iff {s r : String} :
    Setting.filledText (.text s) = .ok r ↔ s ≠ "" ∧ r = s := by
  rw [Setting.filledText, Value.asText]
  by_cases empty : s = "" <;> simp [empty, eq_comm]

theorem dottedName_eq_ok_iff {s r : String} :
    Setting.dottedName (.text s) = .ok r ↔ (s ≠ "" ∧ Identifier.isDotted s = true) ∧ r = s := by
  rw [Setting.dottedName]
  cases filled : Setting.filledText (.text s) with
  | error p =>
    have empty : s = "" := by
      by_contra some
      cases filled.symm.trans (filledText_eq_ok_iff.2 ⟨some, rfl⟩)
    simp [empty]
  | ok x =>
    obtain ⟨some, rfl⟩ := filledText_eq_ok_iff.1 filled
    by_cases dotted : Identifier.isDotted x = true <;> simp [dotted, some, eq_comm]

theorem located_eq_ok_iff {α : Type} {x : Except FieldProblem α} {f : α → Setting}
    {g : FieldProblem → FieldFault} {b : Setting} :
    (x.map f).mapError g = .ok b ↔ ∃ a, x = .ok a ∧ f a = b :=
  mapError_eq_ok_iff.trans map_eq_ok_iff

/-- The entries of sound settings can be read, and those of no others. -/
theorem Sound.map_entries {s : Settings} (sound : s.Sound) :
    s.entries.map Setting.ofEntry = s.read.map .ok := by
  have root := dottedName_eq_ok_iff.2 ⟨⟨sound.filled, sound.dotted⟩, rfl⟩
  have home := filledText_eq_ok_iff.2 ⟨sound.home, rfl⟩
  rw [ofEntry_entries, root, home]
  rfl

theorem sound_of_entries {s : Settings}
    (all : ∀ r ∈ s.entries.map Setting.ofEntry, ∃ a, r = .ok a) : s.Sound := by
  rw [ofEntry_entries] at all
  simp only [List.forall_mem_cons] at all
  obtain ⟨⟨_, first⟩, _, _, _, ⟨_, last⟩, _⟩ := all
  obtain ⟨r, named, _⟩ := located_eq_ok_iff.1 first
  obtain ⟨h, filled, _⟩ := located_eq_ok_iff.1 last
  have root := (dottedName_eq_ok_iff.1 named).1
  exact ⟨root.1, root.2, (filledText_eq_ok_iff.1 filled).1⟩

/-- Settings of different kinds can be put in either order. -/
theorem put_comm (s c : Settings) {x y : Setting} (first : x ∈ s.read) (second : y ∈ s.read) :
    (c.put x).put y = (c.put y).put x := by
  simp only [read, List.mem_cons, List.not_mem_nil, or_false] at first second
  rcases first with rfl | rfl | rfl | rfl | rfl <;>
    rcases second with rfl | rfl | rfl | rfl | rfl <;> rfl

/-- Entries that hold settings, in whatever order, are read if these are sound, and as these. -/
theorem ofEntries_eq_ok_iff {s : Settings} {es : List (Value × Value)} (holds : es.Perm s.entries)
    {c : Settings} : ofEntries es = .ok c ↔ s.Sound ∧ c = s.tidied := by
  have alike := holds.map Setting.ofEntry
  have whole : s.Sound → ofEntries es = .ok s.tidied := by
    intro sound
    rw [sound.map_entries] at alike
    have all : ∀ r ∈ es.map Setting.ofEntry, ∃ a, r = .ok a := by
      intro r member
      obtain ⟨a, _, same⟩ := List.mem_map.1 (alike.subset member)
      exact ⟨a, same.symm⟩
    obtain ⟨given, read⟩ := FieldFault.exists_map_ok all
    rw [read] at alike
    have order := FieldFault.perm_of_map_ok alike
    have folded := order.symm.foldl_eq' (f := put)
      (fun x first y second c => put_comm s c first second) {}
    rw [ofEntries, read, FieldFault.gather_map_ok]
    exact congrArg Except.ok (folded.symm.trans s.foldl_read)
  constructor
  · intro read
    have sound : s.Sound := by
      rw [ofEntries] at read
      split at read
      · next given gathered =>
        rw [FieldFault.map_ok_of_gather gathered] at alike
        refine sound_of_entries fun r member => ?_
        obtain ⟨a, _, same⟩ := List.mem_map.1 (alike.symm.subset member)
        exact ⟨a, same.symm⟩
      · cases read
    exact ⟨sound, Except.ok.inj (read.symm.trans (whole sound))⟩
  · rintro ⟨sound, rfl⟩
    exact whole sound

theorem tidied_tidied (s : Settings) : s.tidied.tidied = s.tidied := by
  rw [tidied, tidied, Option.map_map]
  have stays : Path.tidy ∘ Path.tidy = Path.tidy := funext Path.tidy_tidy
  rw [stays]

theorem Sound.tidied {s : Settings} (sound : s.Sound) : s.tidied.Sound :=
  ⟨sound.filled, sound.dotted, sound.home⟩

end Settings

end NamespacePlan
