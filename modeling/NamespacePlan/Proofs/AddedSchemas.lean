import NamespacePlan.Proofs.QualifiedGraph
import NamespacePlan.Proofs.TableContents

/-! What more schemas do to a table. They may bring a conflict; where they do not, every URI that was
listed stays listed. Rules and prefixes keep their outputs, so a main document alone can move: from
the root down to the prefix that the new schemas give it. -/
namespace NamespacePlan

section Added

variable {ds es : List Descriptor} {root uri p : String} {os : List Override}

theorem binds_append_iff : Binds (ds ++ es) uri p ↔ Binds ds uri p ∨ Binds es uri p := by
  rw [← Prefixes.mem_declared_iff (ds ++ es) (p, uri), Prefixes.declared_append, List.mem_append,
    Prefixes.mem_declared_iff, Prefixes.mem_declared_iff]

theorem IsMaindoc.append (main : IsMaindoc ds uri) : IsMaindoc (ds ++ es) uri := by
  obtain ⟨d, member, truthy, target⟩ := main
  exact ⟨d, List.mem_append_left es member, truthy, target⟩

theorem SinglePrefix.of_append (single : SinglePrefix (ds ++ es)) : SinglePrefix ds := by
  intro uri p q first second
  apply single uri p q
  · exact binds_append_iff.2 (Or.inl first)
  · exact binds_append_iff.2 (Or.inl second)

/-- The URI is listed for its main document alone, and the new schemas bind it under this prefix. -/
structure Moves (ds es : List Descriptor) (os : List Override) (uri p : String) : Prop where
  free : Free os uri
  unbound : ¬ Bound ds uri
  main : IsMaindoc ds uri
  binds : Binds es uri p

/-- Before the move the URI goes to the root, and after it below the root. -/
theorem Moves.assigned (moves : Moves ds es os uri p) (root : String) :
    Assigned ds root os uri (some root) ∧
      Assigned (ds ++ es) root os uri (some (root ++ "." ++ Identifier.pascal p)) := by
  constructor
  · exact .maindoc moves.free moves.unbound moves.main
  · exact .bound moves.free (binds_append_iff.2 (Or.inr moves.binds))

/-- A URI that does not move keeps its output, by the layer that gave it. -/
theorem Assigned.append {output : String} (assigned : Assigned ds root os uri (some output))
    (stays : ∀ p, ¬ Moves ds es os uri p) : Assigned (ds ++ es) root os uri (some output) := by
  cases assigned with
  | ruled rules names last => exact .ruled rules names last
  | bound free binds => exact .bound free (binds_append_iff.2 (Or.inl binds))
  | maindoc free unbound main =>
    refine .maindoc free ?_ main.append
    rintro ⟨p, binds⟩
    rcases binds_append_iff.1 binds with old | new
    · exact unbound ⟨p, old⟩
    · exact stays p ⟨free, unbound, main, new⟩

end Added

namespace NamespaceTable

/-- Both tables show the move. -/
theorem get?_of_moves {ds es : List Descriptor} {os : List Override} {uri p : String}
    (both : SinglePrefix (ds ++ es)) (moves : Moves ds es os uri p) (root : String)
    (optimize strict optimize' strict' : Bool) :
    (ofSchemas ds root optimize' strict' os).entries.get? uri = some root ∧
      (ofSchemas (ds ++ es) root optimize strict os).entries.get? uri =
        some (root ++ "." ++ Identifier.pascal p) := by
  obtain ⟨before, after⟩ := moves.assigned root
  constructor
  · exact (get?_ofSchemas_iff both.of_append root optimize' strict' os uri _).2 before
  · exact (get?_ofSchemas_iff both root optimize strict os uri _).2 after

/-- If a table of more schemas is finished, then so is that of the first ones. All that it lists is
listed in the larger one, with another output for the main documents that move and for nothing else. -/
theorem added_table_exact {ds es : List Descriptor} {root : String} {optimize strict : Bool}
    {os : List Override} {u : NamespaceTable}
    (built : (build (ds ++ es) root optimize strict os).outcome = .ok u) (optimize' strict' : Bool) :
    ∃ t, (build ds root optimize' strict' os).outcome = .ok t ∧
      ∀ uri x, t.entries.get? uri = some x → ∃ y, u.entries.get? uri = some y ∧
        (y ≠ x ↔ ∃ p, Moves ds es os uri p) ∧
        ∀ p, Moves ds es os uri p → x = root ∧ y = root ++ "." ++ Identifier.pascal p := by
  obtain ⟨named, both, rfl⟩ :=
    (outcome_build_eq_ok_iff (ds ++ es) root optimize strict os u).1 built
  have single : SinglePrefix ds := both.of_append
  refine ⟨_, (outcome_build_eq_ok_iff ds root optimize' strict' os _).2 ⟨named, single, rfl⟩, ?_⟩
  intro uri x listed
  by_cases moved : ∃ p, Moves ds es os uri p
  · obtain ⟨p, moves⟩ := moved
    obtain ⟨before, after⟩ := get?_of_moves both moves root optimize strict optimize' strict'
    have top : x = root := Option.some.inj (listed.symm.trans before)
    refine ⟨_, after, ?_, ?_⟩
    · rw [top]
      exact ⟨fun _ => ⟨p, moves⟩, fun _ => Identifier.below_ne_root root _⟩
    · -- another prefix would be in conflict, so the output is told by any that the move names
      intro q other
      have same := (get?_of_moves both other root optimize strict optimize' strict').2
      exact ⟨top, Option.some.inj (after.symm.trans same)⟩
  · have assigned := (get?_ofSchemas_iff single root optimize' strict' os uri _).1 listed
    have kept : Assigned (ds ++ es) root os uri (some x) :=
      assigned.append fun p moves => moved ⟨p, moves⟩
    refine ⟨x, (get?_ofSchemas_iff both root optimize strict os uri _).2 kept, ?_, ?_⟩
    · exact ⟨fun other => absurd rfl other, fun moves => absurd moves moved⟩
    · exact fun p moves => absurd ⟨p, moves⟩ moved

def startingSchemas : List Descriptor :=
  [⟨"urn:inv", OrderedMap.ofList [("cac", "urn:cac")], some true, none⟩,
   ⟨"urn:ord", OrderedMap.ofList [("", "urn:ord")], some true, none⟩]

/-- A library that binds one of the main documents, and a namespace that a rule names. -/
def addedSchemas : List Descriptor :=
  [⟨"urn:cac", OrderedMap.ofList [("cac", "urn:cac"), ("inv", "urn:inv"),
     ("xa", "http://uri.etsi.org/01903/v1.3.2#")], none, none⟩]

theorem bound_maindoc_moves :
    ∃ t u, (build startingSchemas "Ubl").outcome = .ok t ∧
      (build (startingSchemas ++ addedSchemas) "Ubl").outcome = .ok u ∧
      t.entries.get? "urn:inv" = some "Ubl" ∧ u.entries.get? "urn:inv" = some "Ubl.Inv" ∧
      t.entries.get? "urn:ord" = some "Ubl" ∧ u.entries.get? "urn:ord" = some "Ubl" ∧
      u.entries.get? "http://uri.etsi.org/01903/v1.3.2#" = some "Ubl.Xades" := by
  have built := (outcome_build_eq_ok_iff (startingSchemas ++ addedSchemas) "Ubl" false false
    defaultOverrides _).2 ⟨by decide, by decide +kernel, rfl⟩
  obtain ⟨t, first, listed⟩ := added_table_exact built false false
  obtain ⟨_, single, same⟩ := (outcome_build_eq_ok_iff _ _ _ _ _ t).1 first
  have inv : t.entries.get? "urn:inv" = some "Ubl" := by rw [same]; decide +kernel
  have ord : t.entries.get? "urn:ord" = some "Ubl" := by rw [same]; decide +kernel
  have moves : Moves startingSchemas addedSchemas defaultOverrides "urn:inv" "inv" :=
    ⟨by decide, by decide +kernel, by decide, by decide +kernel⟩
  have stays : ¬ ∃ p, Moves startingSchemas addedSchemas defaultOverrides "urn:ord" p := by
    rintro ⟨p, move⟩
    exact absurd ⟨p, move.binds⟩ (by decide +kernel : ¬ Bound addedSchemas "urn:ord")
  obtain ⟨y, large, _, target⟩ := listed _ _ inv
  obtain ⟨z, large', change, _⟩ := listed _ _ ord
  have below : y = "Ubl.Inv" := (target "inv" moves).2
  have same_output : z = "Ubl" := Decidable.not_not.1 fun other => stays (change.1 other)
  exact ⟨t, _, first, built, inv, below ▸ large, ord, same_output ▸ large', by decide +kernel⟩

end NamespaceTable

end NamespacePlan
