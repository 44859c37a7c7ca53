import NamespacePlan.Proofs.SettingFields

/-! Settings that are merged with overrides. Each field is overridden on its own and what is null
overrides nothing, so merges one after the other come to one merge with the overrides laid over each
other. -/
namespace NamespacePlan

namespace Value

def isNull : Value → Bool
  | null => true
  | _ => false

theorem putEntry_textKeyed (k : String) (v : Value) (es : List (String × Value)) :
    putEntry (.text k) v (Settings.textKeyed es) = Settings.textKeyed (OrderedMap.put k v es) := by
  induction es with
  | nil => rfl
  | cons e es ih =>
    rw [Settings.textKeyed, List.map_cons, putEntry, sameKey_text, OrderedMap.put]
    by_cases same : e.1 = k
    · simp [Settings.textKeyed, same]
    · rw [if_neg (by simpa using same), if_neg same]
      exact congrArg _ ih

theorem mapOf_textKeyed (es : List (String × Value)) :
    mapOf (Settings.textKeyed es) = Settings.textKeyed (OrderedMap.ofList es).entries := by
  have behind : ∀ m : OrderedMap String Value,
      (Settings.textKeyed es).foldl (fun m e => putEntry e.1 e.2 m) (Settings.textKeyed m.entries) =
        Settings.textKeyed (es.foldl (fun m e => m.insert e.1 e.2) m).entries := by
    induction es with
    | nil => exact fun _ => rfl
    | cons e es ih =>
      intro m
      have step := putEntry_textKeyed e.1 e.2 m.entries
      rw [List.foldl_cons, ← ih (m.insert e.1 e.2), OrderedMap.insert, ← step]
      rfl
  exact behind .empty

end Value

/-! Overrides. -/

/-- Overrides by the names of the fields. -/
abbrev Overrides := OrderedMap String Value

namespace Overrides

/-- The entries that override something. -/
def given (a : Overrides) : List (String × Value) := a.entries.filter fun e => !e.2.isNull

def given? (a : Overrides) (k : String) : Option Value := OrderedMap.find k a.given

/-- The one mapping with what the other one gives written over it. -/
def overlaid (a b : Overrides) : Overrides := b.given.foldl (fun m e => m.insert e.1 e.2) a

theorem nodup_given (a : Overrides) : (a.given.map Prod.fst).Nodup :=
  a.nodup_keys.sublist (List.filter_sublist.map Prod.fst)

theorem given?_eq_some_iff (a : Overrides) (k : String) (v : Value) :
    a.given? k = some v ↔ a.get? k = some v ∧ v.isNull = false := by
  rw [given?, OrderedMap.find_eq_some_iff a.nodup_given, given, List.mem_filter,
    OrderedMap.get?_eq_some_iff, Bool.not_eq_true']

theorem given?_overlaid (a b : Overrides) (k : String) :
    (a.overlaid b).given? k = (b.given? k).or (a.given? k) := by
  have found : (a.overlaid b).get? k = (b.given? k).or (a.get? k) :=
    OrderedMap.get?_foldl_insert_of_nodup b.nodup_given a k
  ext v
  rw [given?_eq_some_iff, found]
  cases given : b.given? k with
  | none => simp [given?_eq_some_iff]
  | some w =>
    have some := ((b.given?_eq_some_iff k w).1 given).2
    simp only [Option.some_or, Option.some.injEq]
    constructor
    · exact fun h => h.1
    · rintro rfl
      exact ⟨rfl, some⟩

end Overrides

namespace Settings

/-- Settings with the overrides that are given; a name without a field is refused. -/
def mergedWith (c : Settings) (a : Overrides) : Except (List FieldFault) Settings :=
  c.merged (textKeyed a.entries)

/-- The fields as they are written. -/
def pairs (c : Settings) : List (String × Value) :=
  [("root_namespace", .text c.root), ("optimize", .bool c.optimize), ("strict", .bool c.strict),
   ("schema_dir", (Setting.schemaDir c.schemaDir).value), ("project_home", .text c.home)]

theorem find_pairs (c : Settings) (k : String) :
    OrderedMap.find k c.pairs = (c.field? k).map Setting.value := by
  unfold field?
  split
  · rfl
  · rfl
  · rfl
  · rfl
  · rfl
  · next root optimize strict directory home =>
    simp [pairs, OrderedMap.find, Ne.symm root, Ne.symm optimize, Ne.symm strict, Ne.symm directory,
      Ne.symm home]

theorem merged_eq (c : Settings) (es : List (Value × Value)) :
    c.merged es = ofEntries (Value.mapOf (c.entries ++ es.filter fun e => !e.2.isNull)) := by
  apply congrArg fun es => ofEntries (Value.mapOf (c.entries ++ es))
  refine List.filter_congr fun e _ => ?_
  cases e.2 <;> rfl

/-- What is merged are the fields as they are written, under what is given. -/
theorem mergedWith_eq (c : Settings) (a : Overrides) :
    c.mergedWith a = ofEntries (textKeyed (OrderedMap.ofList (c.pairs ++ a.given)).entries) := by
  have filtered : (textKeyed a.entries).filter (fun e => !e.2.isNull) = textKeyed a.given := by
    rw [textKeyed, List.filter_map]
    rfl
  have both : textKeyed (c.pairs ++ a.given) = c.entries ++ textKeyed a.given := List.map_append
  rw [mergedWith, merged_eq, filtered, ← Value.mapOf_textKeyed, both]

theorem get?_merged (c : Settings) (a : Overrides) (k : String) :
    (OrderedMap.ofList (c.pairs ++ a.given)).get? k =
      (a.given? k).or ((c.field? k).map Setting.value) := by
  have nodup : (c.pairs.map Prod.fst).Nodup := by
    change ["root_namespace", "optimize", "strict", "schema_dir", "project_home"].Nodup
    decide
  have written := OrderedMap.get?_foldl_insert_of_nodup nodup .empty k
  rw [OrderedMap.ofList, List.foldl_append, OrderedMap.get?_foldl_insert_of_nodup a.nodup_given,
    written, find_pairs, OrderedMap.get?, OrderedMap.empty, OrderedMap.find, Option.or_none]
  rfl

/-- A field comes out of a merge as it was, or as the override of its name is read. -/
theorem Valid.mergedWith_iff {c : Settings} (valid : c.Valid) (a : Overrides) {d : Settings} :
    c.mergedWith a = .ok d ↔ ∀ k, FieldFrom k (c.field? k) (a.given? k) (d.field? k) := by
  rw [mergedWith_eq, ofEntries_textKeyed_iff]
  refine forall_congr' fun k => ?_
  rw [get?_merged]
  cases a.given? k with
  | some v => rfl
  | none =>
    cases field : c.field? k with
    | none =>
      rw [field?_eq_none field {}]
      rfl
    | some g =>
      obtain ⟨rfl, checked⟩ := valid.checked field
      exact FieldFrom.value_iff checked

/-- Settings that come from some entries by any number of merges. -/
inductive Reachable : Settings → Prop
  | built {es : List (Value × Value)} {c : Settings} (read : ofEntries es = .ok c) : Reachable c
  | merged {c d : Settings} {a : Overrides} (before : Reachable c) (read : c.mergedWith a = .ok d) :
      Reachable d

theorem reachable_iff (c : Settings) : Reachable c ↔ c.Valid := by
  constructor
  · intro reachable
    cases reachable with
    | built read => exact valid_of_ofEntries read
    | merged _ read => exact valid_of_ofEntries read
  · intro valid
    have fields := (valid.mergedWith_iff .empty).2 fun k => rfl
    rw [mergedWith_eq] at fields
    exact .built fields

/-- Merges add up, a merge with nothing changes nothing, a field without an override stays, and what
merges can lead to is valid again. -/
theorem merge_laws {c : Settings} (valid : c.Valid) (a b : Overrides) :
    (∀ d e, c.mergedWith a = .ok d → d.mergedWith b = .ok e →
      c.mergedWith (a.overlaid b) = .ok e) ∧
    c.mergedWith .empty = .ok c ∧
    (∀ d, c.mergedWith a = .ok d → ∀ k, a.given? k = none → d.field? k = c.field? k) ∧
    ∀ d, Reachable d ↔ d.Valid := by
  refine ⟨fun d e first second => ?_, ?_, fun d merged k free => ?_, reachable_iff⟩
  · have valid' : d.Valid := (reachable_iff d).1 (.merged ((reachable_iff c).2 valid) first)
    have fields := (valid.mergedWith_iff a).1 first
    have fields' := (valid'.mergedWith_iff b).1 second
    refine (valid.mergedWith_iff _).2 fun k => ?_
    rw [Overrides.given?_overlaid]
    exact (fields k).trans (fields' k)
  · exact (valid.mergedWith_iff .empty).2 fun _ => rfl
  · have field := (valid.mergedWith_iff a).1 merged k
    rw [free] at field
    exact field

/-- A switch is taken back to what it was, and the root is another one, in one merge or in two. -/
theorem merge_twice :
    Settings.mergedWith {} (.ofList [("schema_dir", .text "x//./y"), ("optimize", .text "Yes")]) =
      .ok { optimize := true, schemaDir := some "x/y" } ∧
    Settings.mergedWith { optimize := true, schemaDir := some "x/y" }
      (.ofList [("optimize", .null), ("root_namespace", .text "A.B"), ("strict", .int 1)]) =
      .ok { root := "A.B", optimize := true, strict := true, schemaDir := some "x/y" } ∧
    Settings.mergedWith {} (Overrides.overlaid
      (.ofList [("schema_dir", .text "x//./y"), ("optimize", .text "Yes")])
      (.ofList [("optimize", .null), ("root_namespace", .text "A.B"), ("strict", .int 1)])) =
      .ok { root := "A.B", optimize := true, strict := true, schemaDir := some "x/y" } := by
  have first : Settings.mergedWith {}
      (.ofList [("schema_dir", .text "x//./y"), ("optimize", .text "Yes")]) =
      .ok { optimize := true, schemaDir := some "x/y" } := rfl
  have second : Settings.mergedWith { optimize := true, schemaDir := some "x/y" }
      (.ofList [("optimize", .null), ("root_namespace", .text "A.B"), ("strict", .int 1)]) =
      .ok { root := "A.B", optimize := true, strict := true, schemaDir := some "x/y" } := rfl
  exact ⟨first, second, (merge_laws valid_default _ _).1 _ _ first second⟩

end Settings

end NamespacePlan
