/-!
# Ranges of characters

A class of characters as a table of code points in increasing order, each pair with both ends.
-/
namespace EvmTrace.Text

abbrev Ranges := List (Nat × Nat)

namespace Ranges

def contains (r : Ranges) (c : Char) : Bool :=
  r.any fun (first, last) => first ≤ c.toNat && c.toNat ≤ last

/-- Whether every range is in order and ends before the next one starts. -/
def isIncreasing : Ranges → Bool
  | [] => true
  | [(first, last)] => first ≤ last
  | (first, last) :: (next, stop) :: rest =>
    first ≤ last && last < next && isIncreasing ((next, stop) :: rest)

theorem contains_iff (r : Ranges) (c : Char) :
    r.contains c = true ↔ ∃ p ∈ r, p.1 ≤ c.toNat ∧ c.toNat ≤ p.2 := by
  simp [contains]

end Ranges
end EvmTrace.Text
