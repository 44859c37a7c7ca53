import NamespacePlan.Proofs.BlockNodes
import NamespacePlan.Proofs.EndlessDocuments

/-! Data read back from its YAML text. The writer puts a key and its value on one line if the key is
shorter than 123 characters; the reader looks for the colon in the 1024 characters behind the beginning
of the key, escapes and all. -/
namespace NamespacePlan

namespace Yaml

open Style Datum

/-! The length of a key as it is written. -/

namespace Scalar

variable {m : Margin}

/-- What stands for a character between double quotes. -/
def quoted (c : Char) : List Char := if isEscaped c then escape c else [c]

theorem length_quoted_le (c : Char) : (quoted c).length ≤ 10 := by
  unfold quoted escape
  split
  · split
    · simp
    · split
      · simp
      · split <;> simp
  · exact Nat.succ_le_succ (Nat.zero_le 9)

/-- Beyond the basic plane no character is shown as it is. -/
theorem isInline_wide {c : Char} (wide : 0x10000 ≤ c.toNat) : isInline c = false := by
  have high : ¬c ≤ '~' := by
    intro below
    have bound : c.toNat ≤ '~'.toNat := UInt32.le_iff_toNat_le.1 below
    exact Nat.not_lt.2 wide (Nat.lt_of_le_of_lt bound (by decide))
  rw [isInline, decide_eq_false high, Bool.and_false]

theorem length_quoted_wide {c : Char} (wide : 0x10000 ≤ c.toNat) : (quoted c).length = 10 := by
  have unnamed : shortEscape? c = none := by
    refine List.lookup_eq_none_iff.2 fun p member => ?_
    have low : ∀ p ∈ [('\x00', '0'), ('\x07', 'a'), ('\x08', 'b'), ('\t', 't'), ('\n', 'n'),
        ('\x0b', 'v'), ('\x0c', 'f'), ('\x0d', 'r'), ('\x1b', 'e'), ('"', '"'), ('\\', '\\'),
        ('\u0085', 'N'), ('\u00a0', '_'), ('\u2028', 'L'), ('\u2029', 'P')],
        p.1.toNat < 0x10000 := by simp
    rw [bne_iff_ne]
    rintro rfl
    exact Nat.not_lt.2 wide (low p member)
  have escaped : isEscaped c = true := by
    have shown := isInline_wide wide
    rw [isInline] at shown
    rw [isEscaped, shown]
    exact Bool.or_true _
  rw [quoted, if_pos escaped, escape, unnamed]
  simp only [show ¬c.toNat < 0x100 by omega, show ¬c.toNat < 0x10000 by omega, if_false,
    List.length_cons, Text.length_hexDigits]

theorem double_unfolded (straight : m.folds = false) (first afterFold : Bool) (col : Nat)
    (cs : List Char) : double m first afterFold col cs = cs.flatMap quoted := by
  induction cs generalizing first afterFold col with
  | nil => rfl
  | cons c cs ih =>
    unfold double
    simp only [straight, Bool.false_and, Bool.false_eq_true, if_false, List.flatMap_cons, ih]
    rw [quoted]
    split <;> rfl

theorem length_flatMap_quoted_le (cs : List Char) : (cs.flatMap quoted).length ≤ 10 * cs.length := by
  induction cs with
  | nil => exact Nat.le_refl 0
  | cons c cs ih =>
    have own := length_quoted_le c
    rw [List.flatMap_cons, List.length_append, List.length_cons]
    omega

theorem length_flatMap_quoted_wide {cs : List Char} (wide : ∀ c ∈ cs, 0x10000 ≤ c.toNat) :
    (cs.flatMap quoted).length = 10 * cs.length := by
  induction cs with
  | nil => rfl
  | cons c cs ih =>
    rw [List.flatMap_cons, List.length_append, length_quoted_wide (wide c List.mem_cons_self),
      ih fun x member => wide x (List.mem_cons_of_mem c member), List.length_cons]
    omega

theorem length_single_le (straight : m.folds = false) {cs : List Char} (oneLine : '\n' ∉ cs)
    (first : Bool) (col : Nat) (before : Char) :
    (single m first col before cs).length ≤ 2 * cs.length := by
  induction cs generalizing first col before with
  | nil => exact Nat.le_refl 0
  | cons c cs ih =>
    have line : c ≠ '\n' := fun same => oneLine (same ▸ List.mem_cons_self)
    have tail := ih fun member => oneLine (List.mem_cons_of_mem c member)
    unfold single
    rw [if_neg line]
    simp only [straight, Bool.false_and, Bool.false_eq_true, if_false]
    split
    · have := tail false (col + 2) c
      simp only [List.length_cons]
      omega
    · have := tail false (col + 1) c
      simp only [List.length_cons]
      omega

end Scalar

theorem length_writeKey_le {cs : List Char} (simple : isSimpleKey cs = true) :
    (writeKey cs).length ≤ 10 * cs.length + 2 := by
  unfold writeKey
  cases Style.of true cs with
  | plain =>
    rw [Scalar.write, Scalar.plain_unfolded rfl]
    omega
  | single =>
    have inside := Scalar.length_single_le (m := ⟨0, false⟩) rfl (Lexer.newline_not_mem simple) true
      (0 + 1) '\x00'
    simp only [Scalar.write, List.length_append, List.length_cons, List.length_nil]
    omega
  | double =>
    have bound := Scalar.length_flatMap_quoted_le cs
    rw [Scalar.write, Scalar.double_unfolded rfl]
    simp only [List.length_append, List.length_cons, List.length_nil]
    omega

/-- A key of at most 102 characters lies within reach, whatever they are. -/
theorem keyFits_of_short {k : String} (short : k.toList.length ≤ 102) : KeyFits k := by
  intro simple
  have bound := length_writeKey_le simple
  unfold Lexer.keyReach
  omega

/-- A longer key of characters beyond the basic plane is put on one line all the same. -/
theorem not_keyFits_of_wide {k : String} (wide : ∀ c ∈ k.toList, 0x10000 ≤ c.toNat)
    (long : 102 < k.toList.length) (short : k.toList.length < 123) : ¬KeyFits k := by
  have more : k.toList ≠ [] := List.ne_nil_of_length_pos (by omega)
  obtain ⟨x, xs, text⟩ := List.exists_cons_of_ne_nil more
  have hidden : k.toList.all isShown = false := by
    have first := wide x (text ▸ List.mem_cons_self)
    have line : (x == '\n') = false := by
      rw [beq_eq_false_iff_ne]
      rintro rfl
      exact absurd first (by decide)
    rw [text, List.all_cons, isShown_eq, line, Scalar.isInline_wide first]
    rfl
  have oneLine : k.toList.any isBreak = false := by
    rw [List.any_eq_false]
    intro c member ends
    simp only [isBreak, Bool.or_eq_true, beq_iff_eq] at ends
    have far := wide c member
    rcases ends with ((rfl | rfl) | rfl) | rfl <;> exact absurd far (by decide)
  have simple : isSimpleKey k.toList = true := by
    rw [isSimpleKey, oneLine, decide_eq_true short, text]
    rfl
  have style : Style.of true k.toList = .double := by
    simp [Style.of, allowsPlain, allowsSingle, hidden]
  have length : (writeKey k.toList).length = 10 * k.toList.length + 2 := by
    rw [writeKey, style, Scalar.write, Scalar.double_unfolded rfl, List.length_append,
      List.length_cons, Scalar.length_flatMap_quoted_wide wide]
    rfl
  intro fits
  have near := fits simple
  rw [length, Lexer.keyReach] at near
  omega

/-! Reading. -/

theorem all_isPrintable {cs : List Char} (lines : Lines True cs) : cs.all isPrintable = true := by
  refine List.all_eq_true.2 fun c member => ?_
  rcases lines c member with inline | ⟨rfl, _⟩
  · simp only [isInline, Bool.and_eq_true, decide_eq_true_eq] at inline
    have low : 0x20 ≤ c.toNat := UInt32.le_iff_toNat_le.1 inline.1
    have high : c.toNat ≤ 0x7E := UInt32.le_iff_toNat_le.1 inline.2
    simp [isPrintable, low, high]
  · rfl

/-- A document reads back as its data if each of its keys is met within reach, and is refused
otherwise. -/
theorem read_writeDocument {fs : List (String × Datum)}
    (room : 2 * fieldDepths fs + 2 < Scalar.bestWidth) (distinct : (Datum.object fs).DistinctKeys) :
    (FieldKeys KeyFits fs ∧ read (writeDocument fs) = .ok (Datum.object fs).toValue) ∨
      (¬FieldKeys KeyFits fs ∧ ∃ f, read (writeDocument fs) = .error f) := by
  have printable := all_isPrintable (lines_writeDocument fs)
  cases fs with
  | nil => exact Or.inl ⟨trivial, rfl⟩
  | cons f fs =>
    unfold read readWithin
    rw [printable]
    simp only [Bool.not_true, Bool.false_eq_true, if_false]
    rcases ofText_writeDocument room with ⟨fits, cut⟩ | ⟨wide, endless⟩
    · refine Or.inl ⟨fits, ?_⟩
      rw [cut, ofTokens_document]
      change (nodeOf (.object (f :: fs))).value.mapError Misfit.fault = _
      rw [value_nodeOf _ distinct]
      rfl
    · obtain ⟨fault, refused⟩ := Document.ofTokens_endless none endless
      refine Or.inr ⟨wide, fault, ?_⟩
      rw [refused]

end Yaml

/-! Manifests. -/

namespace Datum

theorem depths_le {ds : List Datum} {n : Nat} (each : ∀ d ∈ ds, depth d ≤ n) : depths ds ≤ n := by
  induction ds with
  | nil => exact Nat.zero_le n
  | cons d ds ih =>
    exact Nat.max_le.2
      ⟨each d List.mem_cons_self, ih fun e member => each e (List.mem_cons_of_mem d member)⟩

theorem fieldDepths_le {fs : List (String × Datum)} {n : Nat} (each : ∀ f ∈ fs, depth f.2 ≤ n) :
    fieldDepths fs ≤ n := by
  induction fs with
  | nil => exact Nat.zero_le n
  | cons f fs ih =>
    exact Nat.max_le.2
      ⟨each f List.mem_cons_self, ih fun g member => each g (List.mem_cons_of_mem f member)⟩

theorem depth_texts (ss : List String) : depth (texts ss) ≤ 1 := by
  refine Nat.succ_le_succ (depths_le fun d member => ?_)
  obtain ⟨s, _, rfl⟩ := List.mem_map.1 member
  exact Nat.le_refl 0

theorem depth_textFields (fs : List (String × String)) : depth (textFields fs) ≤ 1 := by
  refine Nat.succ_le_succ (fieldDepths_le fun d member => ?_)
  obtain ⟨f, _, rfl⟩ := List.mem_map.1 member
  exact Nat.le_refl 0

variable {p : String → Prop}

theorem eachKey_of_forall {ds : List Datum} (each : ∀ d ∈ ds, EveryKey p d) : EachKey p ds := by
  induction ds with
  | nil => trivial
  | cons d ds ih =>
    exact ⟨each d List.mem_cons_self, ih fun e member => each e (List.mem_cons_of_mem d member)⟩

theorem everyKey_texts (ss : List String) : EveryKey p (texts ss) := by
  refine eachKey_of_forall fun d member => ?_
  obtain ⟨s, _, rfl⟩ := List.mem_map.1 member
  trivial

theorem everyKey_textFields (fs : List (String × String)) :
    EveryKey p (textFields fs) ↔ ∀ f ∈ fs, p f.1 := by
  change FieldKeys p (fs.map fun f => (f.1, .text f.2)) ↔ _
  induction fs with
  | nil => simp [FieldKeys]
  | cons f fs ih => simp [FieldKeys, EveryKey, ih]

end Datum

open Datum

theorem PlannedUnit.depth_toDatum (u : PlannedUnit) : u.toDatum.depth ≤ 2 := by
  refine Nat.succ_le_succ (fieldDepths_le fun f member => ?_)
  simp only [List.mem_cons, List.not_mem_nil, or_false] at member
  rcases member with rfl | rfl | rfl | rfl | rfl
  · exact Nat.zero_le 1
  · exact Nat.zero_le 1
  · exact depth_texts u.imports
  · exact Nat.zero_le 1
  · cases u.xmlNamespace with
    | none => exact Nat.zero_le 1
    | some uri => exact Nat.zero_le 1

theorem PlannedUnit.everyKey_toDatum (u : PlannedUnit) : u.toDatum.EveryKey Yaml.KeyFits := by
  have names : ∀ k ∈ ["namespace", "header", "imports", "documentation", "xml_namespace"],
      Yaml.KeyFits k := by
    intro k member
    refine Yaml.keyFits_of_short ?_
    revert k
    decide
  refine ⟨⟨names _ (by simp), trivial⟩, ⟨names _ (by simp), trivial⟩,
    ⟨names _ (by simp), everyKey_texts _⟩, ⟨names _ (by simp), trivial⟩, ⟨names _ (by simp), ?_⟩,
    trivial⟩
  cases u.xmlNamespace <;> trivial

namespace Manifest

theorem fieldDepths_fields (m : Manifest) : fieldDepths m.fields ≤ 3 := by
  have units : depth (.list (m.units.map PlannedUnit.toDatum)) ≤ 3 := by
    refine Nat.succ_le_succ (depths_le fun d member => ?_)
    obtain ⟨u, _, rfl⟩ := List.mem_map.1 member
    exact u.depth_toDatum
  have namespaces := depth_textFields m.namespaces
  have outputs := depth_texts m.outputs
  refine fieldDepths_le fun f member => ?_
  simp only [fields, List.mem_cons, List.not_mem_nil, or_false] at member
  rcases member with rfl | rfl | rfl | rfl | rfl
  · exact Nat.zero_le 3
  · exact Nat.zero_le 3
  · exact Nat.le_trans namespaces (by decide)
  · exact units
  · exact Nat.le_trans outputs (by decide)

theorem fieldKeys_fields (m : Manifest) :
    FieldKeys Yaml.KeyFits m.fields ↔ ∀ e ∈ m.namespaces, Yaml.KeyFits e.1 := by
  have names : ∀ k ∈ ["root_namespace", "optimize", "namespaces", "units", "output_namespaces"],
      Yaml.KeyFits k := by
    intro k member
    refine Yaml.keyFits_of_short ?_
    revert k
    decide
  have units : EachKey Yaml.KeyFits (m.units.map PlannedUnit.toDatum) := by
    refine eachKey_of_forall fun d member => ?_
    obtain ⟨u, _, rfl⟩ := List.mem_map.1 member
    exact u.everyKey_toDatum
  rw [← everyKey_textFields m.namespaces]
  constructor
  · rintro ⟨_, _, ⟨_, table⟩, _⟩
    exact table
  · intro table
    exact ⟨⟨names _ (by simp), trivial⟩, ⟨names _ (by simp), trivial⟩, ⟨names _ (by simp), table⟩,
      ⟨names _ (by simp), units⟩, ⟨names _ (by simp), everyKey_texts _⟩, trivial⟩

theorem read_yaml (us : List PlannedUnit) (table : OrderedMap String String) (root : String)
    (optimize : Bool) :
    ((∀ e ∈ table.entries, Yaml.KeyFits e.1) ∧
      Yaml.read ((Manifest.of us table root optimize).text .yaml).toList =
        .ok (Manifest.of us table root optimize).toDatum.toValue) ∨
    (¬(∀ e ∈ table.entries, Yaml.KeyFits e.1) ∧
      ∃ f, Yaml.read ((Manifest.of us table root optimize).text .yaml).toList = .error f) := by
  have keys : FieldKeys Yaml.KeyFits (Manifest.of us table root optimize).fields ↔
      ∀ e ∈ table.entries, Yaml.KeyFits e.1 := by
    rw [fieldKeys_fields]
    exact forall_congr' fun e => imp_congr_left (sortedEntries_perm table).mem_iff
  have shallow := fieldDepths_fields (Manifest.of us table root optimize)
  have room : 2 * fieldDepths (Manifest.of us table root optimize).fields + 2 <
      Yaml.Scalar.bestWidth := by
    unfold Yaml.Scalar.bestWidth
    omega
  have reads := Yaml.read_writeDocument room
    (distinctKeys_toDatum (nodup_keys_of us table root optimize))
  rw [keys] at reads
  rw [Manifest.text, Yaml.render, String.toList_ofList]
  exact reads

/-- The YAML text of a manifest reads back as the manifest if each key of the table is met within
reach, and is refused otherwise. -/
theorem read_yaml_text (us : List PlannedUnit) (table : OrderedMap String String) (root : String)
    (optimize : Bool) :
    (Yaml.read ((Manifest.of us table root optimize).text .yaml).toList =
        .ok (Manifest.of us table root optimize).toDatum.toValue ↔
      ∀ e ∈ table.entries, Yaml.KeyFits e.1) ∧
    (Yaml.read ((Manifest.of us table root optimize).text .yaml).toList =
        .ok (Manifest.of us table root optimize).toDatum.toValue ∨
      ∃ f, Yaml.read ((Manifest.of us table root optimize).text .yaml).toList = .error f) := by
  rcases read_yaml us table root optimize with ⟨fits, reads⟩ | ⟨wide, f, refused⟩
  · exact ⟨iff_of_true reads fits, Or.inl reads⟩
  · refine ⟨iff_of_false ?_ wide, Or.inr ⟨f, refused⟩⟩
    rw [refused]
    simp

/-- A table key of 103 characters, each of them written with ten. -/
theorem wide_key_refused : ∃ f, Yaml.read ((Manifest.of []
    (OrderedMap.empty.insert (String.ofList (List.replicate 103 (Char.ofNat 0x1F600))) "Ubl") "Ubl"
      false).text .yaml).toList = .error f := by
  rcases read_yaml []
      (OrderedMap.empty.insert (String.ofList (List.replicate 103 (Char.ofNat 0x1F600))) "Ubl") "Ubl"
      false with ⟨fits, _⟩ | ⟨_, refused⟩
  · refine absurd (fits _ List.mem_cons_self) (Yaml.not_keyFits_of_wide ?_ ?_ ?_)
    · intro c member
      rw [String.toList_ofList] at member
      rw [List.eq_of_mem_replicate member]
      decide
    · rw [String.toList_ofList, List.length_replicate]
      decide
    · rw [String.toList_ofList, List.length_replicate]
      decide
  · exact refused

end Manifest

end NamespacePlan
