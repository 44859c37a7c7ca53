import NamespacePlan.Proofs.SettingFields

/-! Settings entry by entry. Each entry of a mapping is read on its own, so all of them are read if each
is alone, and what is wrong with them together is what is wrong with each. -/
namespace NamespacePlan

namespace FieldFault

variable {α : Type}

def fault? : Except FieldFault α → Option FieldFault
  | .ok _ => none
  | .error f => some f

/-- What is reported, if anything is. -/
def reported : Except (List FieldFault) α → List FieldFault
  | .ok _ => []
  | .error fs => fs

theorem reported_gather (rs : List (Except FieldFault α)) :
    reported (gather rs) = rs.filterMap fault? := by
  induction rs with
  | nil => rfl
  | cons r rs ih =>
    unfold gather
    cases r <;> cases later : gather rs <;> simp [later, reported, fault?] at ih ⊢ <;> exact ih

theorem gather_isOk_iff {rs : List (Except FieldFault α)} :
    (∃ as, gather rs = .ok as) ↔ ∀ r ∈ rs, ∃ a, r = .ok a := by
  constructor
  · rintro ⟨as, gathered⟩ r member
    rw [map_ok_of_gather gathered] at member
    obtain ⟨a, _, rfl⟩ := List.mem_map.1 member
    exact ⟨a, rfl⟩
  · intro all
    obtain ⟨as, rfl⟩ := exists_map_ok all
    exact ⟨as, gather_map_ok as⟩

theorem pairwise_sorted (fs : List FieldFault) :
    (sorted fs).Pairwise fun f g => f.line ≤ g.line := by
  have transitive : ∀ f g h : FieldFault,
      decide (f.line ≤ g.line) = true → decide (g.line ≤ h.line) = true →
        decide (f.line ≤ h.line) = true := by
    intro f g h first second
    exact decide_eq_true (String.le_trans (of_decide_eq_true first) (of_decide_eq_true second))
  have total : ∀ f g : FieldFault, (decide (f.line ≤ g.line) || decide (g.line ≤ f.line)) = true := by
    intro f g
    simpa using String.le_total f.line g.line
  have ordered := List.pairwise_mergeSort transitive total fs
  exact ordered.imp of_decide_eq_true

end FieldFault

namespace Value

/-- Entries with keys of which no two are one key. -/
def IsMapping (es : List (Value × Value)) : Prop := es.Pairwise fun e f => sameKey e.1 f.1 = false

instance (es : List (Value × Value)) : Decidable (IsMapping es) :=
  inferInstanceAs (Decidable (es.Pairwise fun e f => sameKey e.1 f.1 = false))

end Value

namespace Settings

open FieldFault

theorem ofEntries_singleton (e : Value × Value) :
    ofEntries [e] = match Setting.ofEntry e with
      | .ok g => .ok (({} : Settings).put g)
      | .error f => .error [f] := by
  rw [ofEntries, List.map_singleton]
  cases Setting.ofEntry e with
  | ok g => rfl
  | error f => exact congrArg Except.error (List.mergeSort_singleton f)

theorem isOk_singleton_iff {e : Value × Value} :
    (∃ c, ofEntries [e] = .ok c) ↔ ∃ g, Setting.ofEntry e = .ok g := by
  rw [ofEntries_singleton]
  cases Setting.ofEntry e <;> simp

theorem reported_singleton (e : Value × Value) :
    reported (ofEntries [e]) = (fault? (Setting.ofEntry e)).toList := by
  rw [ofEntries_singleton]
  cases Setting.ofEntry e <;> rfl

theorem isOk_ofEntries_iff {es : List (Value × Value)} :
    (∃ c, ofEntries es = .ok c) ↔ ∃ gs, gather (es.map Setting.ofEntry) = .ok gs := by
  unfold ofEntries
  cases gather (es.map Setting.ofEntry) <;> simp

theorem reported_ofEntries (es : List (Value × Value)) :
    (reported (ofEntries es)).Perm (es.flatMap fun e => reported (ofEntries [e])) := by
  have alone : es.flatMap (fun e => reported (ofEntries [e])) =
      reported (gather (es.map Setting.ofEntry)) := by
    rw [reported_gather, List.filterMap_map, List.filterMap_eq_flatMap_toList]
    exact List.flatMap_congr fun e _ => reported_singleton e
  rw [alone, ofEntries]
  cases gather (es.map Setting.ofEntry) with
  | ok gs => exact .refl _
  | error fs => exact List.mergeSort_perm fs _

/-- Entries that are all read have texts as keys. -/
theorem exists_textKeyed {es : List (Value × Value)}
    (all : ∀ e ∈ es, ∃ g, Setting.ofEntry e = .ok g) : ∃ ts, es = textKeyed ts := by
  induction es with
  | nil => exact ⟨[], rfl⟩
  | cons e es ih =>
    obtain ⟨g, first⟩ := all e List.mem_cons_self
    obtain ⟨ts, rfl⟩ := ih fun f later => all f (List.mem_cons_of_mem e later)
    obtain ⟨k, v⟩ := e
    cases k with
    | text name => exact ⟨(name, v) :: ts, rfl⟩
    | _ => cases first

theorem mem_textKeyed {ts : List (String × Value)} {k : String} {v : Value} :
    (.text k, v) ∈ textKeyed ts ↔ (k, v) ∈ ts := by
  simp [textKeyed]

theorem nodup_of_isMapping {ts : List (String × Value)} (mapping : Value.IsMapping (textKeyed ts)) :
    (ts.map Prod.fst).Nodup := by
  rw [List.nodup_iff_pairwise_ne, List.pairwise_map]
  refine (List.pairwise_map.1 mapping).imp fun {e f} other same => ?_
  rw [same, Value.sameKey_text, beq_self_eq_true] at other
  cases other

/-- Settings that are read from a mapping take each field from the entry of its name, as this entry is
read alone; a field without an entry has its default. -/
theorem field?_of_ofEntries {es : List (Value × Value)} (mapping : Value.IsMapping es) {c : Settings}
    (read : ofEntries es = .ok c) (k : String) :
    (∀ v, (.text k, v) ∈ es → ∃ d, ofEntries [(.text k, v)] = .ok d ∧ c.field? k = d.field? k) ∧
      ((∀ v, (.text k, v) ∉ es) → c.field? k = ({} : Settings).field? k) := by
  obtain ⟨gs, gathered⟩ := isOk_ofEntries_iff.1 ⟨c, read⟩
  have all := gather_isOk_iff.1 ⟨gs, gathered⟩
  obtain ⟨ts, rfl⟩ := exists_textKeyed fun e member => all _ (List.mem_map_of_mem member)
  have fields := (ofEntries_textKeyed_iff ⟨ts, nodup_of_isMapping mapping⟩).1 read k
  constructor
  · intro v member
    have given := (OrderedMap.get?_eq_some_iff ⟨ts, nodup_of_isMapping mapping⟩ k v).2
      (mem_textKeyed.1 member)
    rw [given] at fields
    obtain ⟨g, reads, whole⟩ := fields
    have alone : ofEntries [(.text k, v)] = .ok (({} : Settings).put g) := by
      rw [ofEntries_singleton, (ofEntry_text (k, v)).2 reads]
    refine ⟨_, alone, ?_⟩
    rw [whole, field?_put, if_pos (Setting.read_spec reads).1]
  · intro absent
    have none : OrderedMap.get? ⟨ts, nodup_of_isMapping mapping⟩ k = none := by
      rw [Option.eq_none_iff_forall_ne_some]
      intro v given
      exact absent v (mem_textKeyed.2 ((OrderedMap.get?_eq_some_iff _ k v).1 given))
    rw [none] at fields
    exact fields

/-- A mapping is read if each of its entries is alone, and then each field is that of its own entry;
otherwise what is wrong with it is what is wrong with its entries, in one order. -/
theorem ofEntries_entrywise {es : List (Value × Value)} (mapping : Value.IsMapping es) :
    ((∃ c, ofEntries es = .ok c) ↔ ∀ e ∈ es, ∃ c, ofEntries [e] = .ok c) ∧
    (∀ c, ofEntries es = .ok c → ∀ k,
      (∀ v, (.text k, v) ∈ es → ∃ d, ofEntries [(.text k, v)] = .ok d ∧ c.field? k = d.field? k) ∧
      ((∀ v, (.text k, v) ∉ es) → c.field? k = ({} : Settings).field? k)) ∧
    ∀ fs, ofEntries es = .error fs →
      fs.Perm (es.flatMap fun e => reported (ofEntries [e])) ∧
      fs.Pairwise fun f g => f.line ≤ g.line := by
  refine ⟨?_, fun c read k => field?_of_ofEntries mapping read k, fun fs failed => ⟨?_, ?_⟩⟩
  · rw [isOk_ofEntries_iff, gather_isOk_iff, List.forall_mem_map]
    exact forall₂_congr fun e _ => isOk_singleton_iff.symm
  · have together := reported_ofEntries es
    rwa [failed] at together
  · unfold ofEntries at failed
    split at failed
    · cases failed
    · cases failed
      exact pairwise_sorted _

/-- One entry that is read, and four that are not, each for a reason of its own. -/
def mixedEntries : List (Value × Value) :=
  [(.text "optimize", .text "maybe"), (.int 1, .null), (.text "strict", .text "Off"),
   (.text "root_namespace", .text ""), (.text "depth", .int 2)]

theorem mixedEntries_reported : Value.IsMapping mixedEntries ∧
    ofEntries [(.text "strict", .text "Off")] = .ok {} ∧
    ∃ fs, ofEntries mixedEntries = .error fs ∧ (fs.Pairwise fun f g => f.line ≤ g.line) ∧
      fs.Perm [⟨[.name "optimize"], .unclearTruth⟩, ⟨[.index 1], .badKey⟩,
        ⟨[.name "root_namespace"], .emptyText⟩, ⟨[.name "depth"], .unknownField⟩] := by
  have mapping : Value.IsMapping mixedEntries := by decide
  obtain ⟨each, _, together⟩ := ofEntries_entrywise mapping
  refine ⟨mapping, ofEntries_singleton _, ?_⟩
  cases failed : ofEntries mixedEntries with
  | ok c =>
    obtain ⟨d, alone⟩ := each.1 ⟨c, failed⟩ (.int 1, .null) (by simp [mixedEntries])
    rw [ofEntries_singleton] at alone
    cases alone
  | error fs =>
    obtain ⟨perm, ordered⟩ := together fs failed
    simp only [reported_singleton] at perm
    exact ⟨fs, rfl, ordered, perm⟩

end Settings

end NamespacePlan
