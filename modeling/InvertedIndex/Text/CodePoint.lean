set_option autoImplicit false
set_option relaxedAutoImplicit false

namespace InvertedIndex.Text

abbrev CodePointRange := Nat × Nat

def inRanges (ranges : Array CodePointRange) (point : Nat) : Bool :=
  ranges.any fun (low, high) => low ≤ point && point ≤ high

end InvertedIndex.Text
