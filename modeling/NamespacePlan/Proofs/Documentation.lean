import NamespacePlan.Proofs.OutputNames

/-! Which units carry a documentation. The body is told by the end of the output namespace; a
segment below the root is read as it stands, and a unit at the root is read by the end of the root
itself. -/
namespace NamespacePlan

open Identifier

namespace Banner

theorem endsIn_iff (output key : String) : endsIn output key = true ↔ LiesAt output key := by
  rw [endsIn, List.isSuffixOf_iff_suffix]
  constructor
  · rintro ⟨front, whole⟩
    refine ⟨String.ofList front, String.toList_inj.1 ?_⟩
    rw [toList_below, String.toList_ofList, whole]
  · rintro ⟨base, rfl⟩
    exact ⟨base.toList, (toList_below base key).symm⟩

/-- The sub-namespaces that carry a documentation. -/
def documentedKeys : List String := ["Cbc", "Cac", "Cctscct", "Qdt"]

/-- The documentation body of a sub-namespace; empty for most. -/
def bodyOf (key : String) (optimize : Bool) : String :=
  match (documented optimize).find? fun d => d.1 == key with
  | some d => "\n" ++ d.2 ++ "\n"
  | none => ""

theorem map_fst_documented (optimize : Bool) :
    (documented optimize).map Prod.fst = documentedKeys := rfl

theorem documentedKeys_dotless : ∀ key ∈ documentedKeys, '.' ∉ key.toList := by decide

theorem body_ne_empty (text : String) : "\n" ++ text ++ "\n" ≠ "" := by
  intro empty
  have characters := congrArg String.toList empty
  simp at characters

theorem documentation_ne_empty_iff (output : String) (optimize : Bool) :
    documentation output optimize ≠ "" ↔ ∃ key ∈ documentedKeys, LiesAt output key := by
  unfold documentation
  cases found : (documented optimize).find? fun d => endsIn output d.1 with
  | none =>
    refine ⟨fun body => absurd rfl body, ?_⟩
    rintro ⟨key, member, lies⟩
    rw [← map_fst_documented optimize] at member
    obtain ⟨d, entry, rfl⟩ := List.mem_map.1 member
    exact absurd ((endsIn_iff output d.1).2 lies) (List.find?_eq_none.1 found d entry)
  | some d =>
    have member : d.1 ∈ documentedKeys := by
      rw [← map_fst_documented optimize]
      exact List.mem_map_of_mem (List.mem_of_find?_eq_some found)
    have ends := List.find?_some (p := fun d : String × String => endsIn output d.1) found
    exact ⟨fun _ => ⟨d.1, member, (endsIn_iff output d.1).1 ends⟩, fun _ => body_ne_empty d.2⟩

theorem documentation_eq_empty_iff (output : String) (optimize : Bool) :
    documentation output optimize = "" ↔ ∀ key ∈ documentedKeys, ¬ LiesAt output key := by
  have body := documentation_ne_empty_iff output optimize
  constructor
  · exact fun empty key member lies => body.2 ⟨key, member, lies⟩ empty
  · intro nowhere
    apply Decidable.byContradiction
    intro some_body
    obtain ⟨key, member, lies⟩ := body.1 some_body
    exact nowhere key member lies

/-- Whatever stands in front, the end decides the body. -/
theorem documentation_of_liesAt {output key : String} (dotless : '.' ∉ key.toList)
    (lies : LiesAt output key) (optimize : Bool) :
    documentation output optimize = bodyOf key optimize := by
  obtain ⟨base, rfl⟩ := lies
  have agree : ∀ d ∈ documented optimize,
      endsIn (base ++ "." ++ key) d.1 = (d.1 == key) := by
    intro d member
    have plain := documentedKeys_dotless d.1
      (map_fst_documented optimize ▸ List.mem_map_of_mem member)
    rw [Bool.eq_iff_iff, endsIn_iff, liesAt_below_iff dotless plain, beq_iff_eq]
    exact eq_comm
  have found : ((documented optimize).find? fun d => endsIn (base ++ "." ++ key) d.1) =
      (documented optimize).find? fun d => d.1 == key := by
    rw [← List.head?_filter, List.filter_congr agree, List.head?_filter]
  rw [documentation, found]
  rfl

end Banner

namespace Planner

open Banner

/-- A listed unit has a documentation when its output is a documented sub-namespace of the root, or
is the root and the root itself ends like one; that key and the mode decide the body. -/
theorem documentation_exact {ds : List Descriptor} {root : String} {optimize strict : Bool}
    {home : String} {p : Planner}
    (built : (build ds root optimize strict home).outcome = .ok p) {uri output : String}
    (listed : p.table.entries.get? uri = some output) :
    ∃ u, (p.planNamespace uri).outcome = .ok u ∧ u.namespaceName = output ∧
      (u.documentation ≠ "" ↔ ∃ key ∈ documentedKeys,
        output = root ++ "." ++ key ∨ output = root ∧ LiesAt root key) ∧
      (∀ key ∈ documentedKeys, output = root ++ "." ++ key ∨ output = root ∧ LiesAt root key →
        u.documentation = bodyOf key optimize) ∧
      (output = root → (u.documentation = "" ↔ ∀ key ∈ documentedKeys, ¬ LiesAt root key)) := by
  obtain ⟨_, single, rfl⟩ := (outcome_build_eq_ok_iff ds root optimize strict home p).1 built
  have assigned := (NamespaceTable.get?_ofSchemas_iff single root optimize strict
    defaultOverrides uri (some output)).1 listed
  obtain ⟨segment, dotless, shape, _⟩ := exists_key assigned
  have lies : ∀ key ∈ documentedKeys, LiesAt output key ↔
      output = root ++ "." ++ key ∨ output = root ∧ LiesAt root key := fun key member =>
    shape ▸ liesAt_qualify_iff dotless (documentedKeys_dotless key member)
  refine ⟨_, outcome_planNamespace_of_listed listed, rfl, ?_, ?_, ?_⟩
  · refine (documentation_ne_empty_iff output optimize).trans ?_
    exact exists_congr fun key => and_congr_right (lies key)
  · intro key member here
    exact documentation_of_liesAt (documentedKeys_dotless key member) ((lies key member).2 here)
      optimize
  · rintro rfl
    exact documentation_eq_empty_iff output optimize

def documentedSchemas : List Descriptor :=
  [⟨"urn:doc", OrderedMap.ofList [("ccts-cct", "urn:ccts")], some true, none⟩]

theorem nested_root_documented :
    ∃ p u v, (build documentedSchemas "Acme.Cbc" true).outcome = .ok p ∧
      p.table.entries.get? "urn:ccts" = some "Acme.Cbc.Cctscct" ∧
      (p.planNamespace "urn:ccts").outcome = .ok u ∧ u.documentation = bodyOf "Cctscct" true ∧
      p.table.entries.get? "urn:doc" = some "Acme.Cbc" ∧
      (p.planNamespace "urn:doc").outcome = .ok v ∧ v.documentation = bodyOf "Cbc" true := by
  have built := (outcome_build_eq_ok_iff documentedSchemas "Acme.Cbc" true false defaultHome _).2
    ⟨by decide, by decide, rfl⟩
  have below : (ofSchemas documentedSchemas "Acme.Cbc" true false defaultHome).table.entries.get?
      "urn:ccts" = some "Acme.Cbc.Cctscct" := by decide +kernel
  have atRoot : (ofSchemas documentedSchemas "Acme.Cbc" true false defaultHome).table.entries.get?
      "urn:doc" = some "Acme.Cbc" := by decide
  obtain ⟨u, planned, _, _, body, _⟩ := documentation_exact built below
  obtain ⟨v, planned', _, _, body', _⟩ := documentation_exact built atRoot
  exact ⟨_, u, v, built, below, planned, body "Cctscct" (by decide) (Or.inl rfl), atRoot, planned',
    body' "Cbc" (by decide) (Or.inr ⟨rfl, "Acme", rfl⟩)⟩

/-- A unit at the root takes the documentation that the end of the root names, though it is no
sub-namespace of it. -/
theorem root_ending_documents_maindoc :
    ∃ p u, (build documentedSchemas "Acme.Cbc").outcome = .ok p ∧
      p.table.entries.get? "urn:doc" = some "Acme.Cbc" ∧
      (p.planNamespace "urn:doc").outcome = .ok u ∧ u.documentation ≠ "" ∧
      ∀ key ∈ documentedKeys, "Acme.Cbc" ≠ "Acme.Cbc" ++ "." ++ key := by
  have built := (outcome_build_eq_ok_iff documentedSchemas "Acme.Cbc" false false defaultHome _).2
    ⟨by decide, by decide, rfl⟩
  have listed : (ofSchemas documentedSchemas "Acme.Cbc" false false defaultHome).table.entries.get?
      "urn:doc" = some "Acme.Cbc" := by decide
  exact ⟨_, _, built, listed, outcome_planNamespace_of_listed listed, by decide, by decide⟩

end Planner

end NamespacePlan
