/-!
# Classes of characters

A class of characters is given by ranges of code points, both ends of a range included.
-/

namespace Script

namespace Text

/-- Whether the code point of a character is in one of the ranges. -/
def inRanges (ranges : List (Nat × Nat)) (c : Char) : Bool :=
  ranges.any fun (first, last) => decide (first ≤ c.toNat) && decide (c.toNat ≤ last)

/-- A character in one of the ranges is in the class. -/
theorem inRanges_of_mem {ranges : List (Nat × Nat)} {range : Nat × Nat} {c : Char}
    (h : range ∈ ranges) (hfirst : range.1 ≤ c.toNat) (hlast : c.toNat ≤ range.2) :
    inRanges ranges c :=
  List.any_eq_true.2 ⟨range, h, by simp [hfirst, hlast]⟩

end Text

end Script
