/-!
Sets of characters, held as intervals of code points. Every character property of this library is one
such set.
-/

namespace NamespacePlan.Text

abbrev Ranges := List (Nat × Nat)

def Ranges.mem (rs : Ranges) (c : Char) : Bool :=
  rs.any fun r => r.1 ≤ c.toNat && c.toNat ≤ r.2

theorem Ranges.mem_iff (rs : Ranges) (c : Char) :
    rs.mem c = true ↔ ∃ r ∈ rs, r.1 ≤ c.toNat ∧ c.toNat ≤ r.2 := by
  simp [Ranges.mem, List.any_eq_true]

end NamespacePlan.Text
