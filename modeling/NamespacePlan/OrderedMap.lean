/-!
Maps in the order of first insertion. Writing a key that is present keeps its place, so two runs that
write the same keys in the same order list them alike, whatever the values.
-/

namespace NamespacePlan

/-- Entries in insertion order, with distinct keys. -/
structure OrderedMap (κ ν : Type) where
  entries : List (κ × ν)
  nodup_keys : (entries.map Prod.fst).Nodup

namespace OrderedMap

variable {κ ν : Type} [DecidableEq κ]

/-- Writes an entry: in place when the key is listed, else at the end. -/
def put (k : κ) (v : ν) : List (κ × ν) → List (κ × ν)
  | [] => [(k, v)]
  | e :: es => if e.1 = k then (k, v) :: es else e :: put k v es

theorem keys_put (k : κ) (v : ν) (es : List (κ × ν)) :
    (put k v es).map Prod.fst =
      if k ∈ es.map Prod.fst then es.map Prod.fst else es.map Prod.fst ++ [k] := by
  induction es with
  | nil => simp [put]
  | cons e es ih =>
    by_cases h : e.1 = k
    · simp [put, h]
    · have h' : k ≠ e.1 := fun hk => h hk.symm
      by_cases hm : k ∈ es.map Prod.fst
      · simp only [put, h, if_false, List.map_cons, ih, hm, if_true, List.mem_cons, h', false_or]
      · simp only [put, h, if_false, List.map_cons, ih, hm, List.mem_cons, h', false_or,
          List.cons_append]

theorem nodup_put {es : List (κ × ν)} (h : (es.map Prod.fst).Nodup) (k : κ) (v : ν) :
    ((put k v es).map Prod.fst).Nodup := by
  rw [keys_put]
  split
  · exact h
  case isFalse hk =>
    refine List.nodup_append.2 ⟨h, by simp, ?_⟩
    intro a ha b hb hab
    simp only [List.mem_singleton] at hb
    exact hk (hb ▸ hab ▸ ha)

def find (k : κ) : List (κ × ν) → Option ν
  | [] => none
  | e :: es => if e.1 = k then some e.2 else find k es

def empty : OrderedMap κ ν := ⟨[], by simp⟩

def get? (m : OrderedMap κ ν) (k : κ) : Option ν := find k m.entries

def contains (m : OrderedMap κ ν) (k : κ) : Bool := (m.get? k).isSome

def insert (m : OrderedMap κ ν) (k : κ) (v : ν) : OrderedMap κ ν :=
  ⟨put k v m.entries, nodup_put m.nodup_keys k v⟩

/-- Writes an entry unless the key is listed. -/
def insertNew (m : OrderedMap κ ν) (k : κ) (v : ν) : OrderedMap κ ν :=
  if m.contains k then m else m.insert k v

/-- Writes the entries one after the other: a repeated key keeps its first place and takes its last
value. -/
def ofList (es : List (κ × ν)) : OrderedMap κ ν :=
  es.foldl (fun m e => m.insert e.1 e.2) empty

def toList (m : OrderedMap κ ν) : List (κ × ν) := m.entries

def keys (m : OrderedMap κ ν) : List κ := m.entries.map Prod.fst

def values (m : OrderedMap κ ν) : List ν := m.entries.map Prod.snd

omit [DecidableEq κ] in
theorem ext {m n : OrderedMap κ ν} (h : m.entries = n.entries) : m = n := by
  cases m
  cases n
  simp_all

instance [DecidableEq ν] : DecidableEq (OrderedMap κ ν) := fun m n =>
  if h : m.entries = n.entries then isTrue (ext h) else isFalse fun hmn => h (hmn ▸ rfl)

instance [Repr κ] [Repr ν] : Repr (OrderedMap κ ν) := ⟨fun m => reprPrec m.entries⟩

instance : Inhabited (OrderedMap κ ν) := ⟨empty⟩

theorem find_put (k : κ) (v : ν) (es : List (κ × ν)) (j : κ) :
    find j (put k v es) = if k = j then some v else find j es := by
  induction es with
  | nil => simp [put, find]
  | cons e es ih =>
    by_cases he : e.1 = k
    · by_cases hk : k = j
      · simp [put, he, find, hk]
      · simp [put, he, find, hk]
    · by_cases hj : e.1 = j
      · have hk : k ≠ j := fun h => he (hj.trans h.symm)
        rw [put, if_neg he]
        simp [find, hj, hk]
      · simp [put, he, find, hj, ih]

@[simp] theorem get?_insert (m : OrderedMap κ ν) (k : κ) (v : ν) (j : κ) :
    (m.insert k v).get? j = if k = j then some v else m.get? j :=
  find_put k v m.entries j

theorem keys_insert (m : OrderedMap κ ν) (k : κ) (v : ν) :
    (m.insert k v).keys = if k ∈ m.keys then m.keys else m.keys ++ [k] :=
  keys_put k v m.entries

end OrderedMap

end NamespacePlan
