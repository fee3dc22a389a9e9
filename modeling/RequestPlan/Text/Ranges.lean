/-!
# Sets of characters given by ranges

* `Ranges`: pairs of first and last code point; a character belongs to the set when
  one of the pairs encloses it (`Ranges.has`).
-/

namespace RequestPlan.Text

/-- A set of characters, as pairs of first and last code point. -/
abbrev Ranges := List (Nat × Nat)

/-- Whether the character lies in one of the ranges. -/
def Ranges.has (r : Ranges) (c : Char) : Bool :=
  r.any fun p => p.1 ≤ c.toNat && c.toNat ≤ p.2

end RequestPlan.Text
