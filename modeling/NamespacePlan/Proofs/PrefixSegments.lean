import NamespacePlan.Proofs.DottedNames
import NamespacePlan.Proofs.SegmentNames
import NamespacePlan.Proofs.TableContents

/-! What a prefix adds to the root. Cleaning makes a name of any text and leaves a clean name as it
is; the segment made of that name holds no dot, so an output that comes from a prefix has the segments
of the root and one more behind them. -/
namespace NamespacePlan

namespace Identifier

open Text

/-- A name of letters, numeric characters and underscores with no numeric one in front. -/
structure CleanName (s : String) : Prop where
  nonempty : s ≠ ""
  kept : ∀ c ∈ s.toList, isLetter c = true ∨ isNumeric c = true ∨ c = '_'
  front : ∀ c ∈ s.toList.head?, isLetter c = true ∨ c = '_'

theorem cleanName_iff (s : String) : CleanName s ↔ isClean s.toList = true := by
  have nonempty : s.toList ≠ [] ↔ s ≠ "" := not_congr String.toList_eq_nil_iff
  simp only [isClean_iff, nonempty, staysInName, startsName, Bool.or_eq_true, beq_iff_eq, or_assoc]
  constructor
  · rintro ⟨nonempty, kept, front⟩
    exact ⟨nonempty, kept, front⟩
  · rintro ⟨nonempty, kept, front⟩
    exact ⟨nonempty, kept, front⟩

theorem cleanName_clean (s : String) : CleanName (clean s) := by
  rw [cleanName_iff, toList_clean]
  exact isClean_cleanChars s.toList

theorem clean_eq_self_iff (s : String) : clean s = s ↔ CleanName s := by
  constructor
  · intro same
    exact same ▸ cleanName_clean s
  · intro name
    rw [← String.toList_inj, toList_clean]
    exact cleanChars_of_isClean ((cleanName_iff s).1 name)

theorem clean_clean (s : String) : clean (clean s) = clean s :=
  (clean_eq_self_iff (clean s)).2 (cleanName_clean s)

theorem segments_below_pascal (root p : String) :
    segments (root ++ "." ++ pascal p) = segments root ++ [(pascal p).toList] := by
  rw [segments_below, segments_of_dotless (pascal_dotless p)]

end Identifier

namespace NamespaceTable

open Identifier

/-- Cleaning yields a name, that of a name itself; the segment of a prefix is not empty and has no
dot. So a finished table sends every URI that goes to a prefix one segment below the root. -/
theorem prefix_segment_exact :
    (∀ s : String, CleanName (clean s) ∧ (clean s = s ↔ CleanName s) ∧
      clean (clean s) = clean s ∧ pascal s ≠ "" ∧ '.' ∉ (pascal s).toList) ∧
    ∀ {ds : List Descriptor} {root : String} {optimize strict : Bool} {os : List Override}
      {t : NamespaceTable}, (build ds root optimize strict os).outcome = .ok t →
      ∀ uri p, Free os uri → Binds ds uri p → ∃ output, t.entries.get? uri = some output ∧
        segments output = segments root ++ [(pascal p).toList] := by
  refine ⟨fun s => ⟨cleanName_clean s, clean_eq_self_iff s, clean_clean s, pascal_ne_empty s,
    pascal_dotless s⟩, ?_⟩
  intro ds root optimize strict os t built uri p free binds
  obtain ⟨_, single, rfl⟩ := (outcome_build_eq_ok_iff ds root optimize strict os t).1 built
  refine ⟨root ++ "." ++ pascal p, ?_, segments_below_pascal root p⟩
  exact (get?_ofSchemas_iff single root optimize strict os uri _).2 (.bound free binds)

/-- A prefix whose dot is dropped before a digit, and one letter that is raised to two characters. -/
def dottedPrefixes : List Descriptor :=
  [⟨"urn:doc", OrderedMap.ofList [("", "urn:doc"), ("1.x", "urn:a"), (".\u0149", "urn:b")], none,
    none⟩]

theorem dotted_prefixes_add_segments :
    ∃ t a b, (build dottedPrefixes "Acme.Ubl").outcome = .ok t ∧
      t.entries.get? "urn:a" = some a ∧
      segments a = segments "Acme.Ubl" ++ ["Item1x".toList] ∧
      t.entries.get? "urn:b" = some b ∧
      segments b = ["Acme".toList, "Ubl".toList, "\u02bcN".toList] := by
  have built := (outcome_build_eq_ok_iff dottedPrefixes "Acme.Ubl" false false defaultOverrides
    _).2 ⟨by decide, by decide, rfl⟩
  obtain ⟨_, adds⟩ := prefix_segment_exact
  obtain ⟨a, listed_a, segments_a⟩ := adds built "urn:a" "1.x" (by decide) (by decide)
  obtain ⟨b, listed_b, segments_b⟩ := adds built "urn:b" ".\u0149" (by decide) (by decide)
  exact ⟨_, a, b, built, listed_a, segments_a.trans (by decide +kernel), listed_b,
    segments_b.trans (by decide +kernel)⟩

end NamespaceTable

end NamespacePlan
