/-!
Decimal digits and the numbers they write.
-/

namespace NamespacePlan.Text

def isDigit (c : Char) : Bool := '0' ≤ c && c ≤ '9'

def natOf (ds : List Char) : Nat := ds.foldl (fun n d => 10 * n + (d.toNat - 48)) 0

end NamespacePlan.Text
