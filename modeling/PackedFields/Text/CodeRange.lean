/-!
# Ranges of code points

A property of characters is given as a list of ranges of code points.
-/

namespace PackedFields.Text

/-- A range of code points, by its first and last member. -/
abbrev CodeRange := Nat × Nat

/-- Whether some range of `ranges` holds the code point of `c`. -/
def covers (ranges : List CodeRange) (c : Char) : Bool :=
  ranges.any fun r => r.1 ≤ c.toNat && c.toNat ≤ r.2

end PackedFields.Text
