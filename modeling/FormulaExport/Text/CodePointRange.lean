/-!
# Ranges of code points

Properties of characters are given as ascending lists of **ranges of code points**.
-/

set_option autoImplicit false

namespace FormulaExport.Text

/-- A **range** holds the code points from `first` to `last`, both included. -/
structure CodePointRange where
  first : Nat
  last : Nat

namespace CodePointRange

def holds (range : CodePointRange) (c : Char) : Bool :=
  range.first ≤ c.toNat && c.toNat ≤ range.last

def cover (ranges : List CodePointRange) (c : Char) : Bool :=
  ranges.any fun range => range.holds c

end CodePointRange

end FormulaExport.Text
