/-
SelectOutline.Text.Ranges — character classes given by code ranges.

A class is a list of inclusive ranges of code points. Membership is a
plain search of the list, so nothing depends on the order of the
ranges or on their being apart.
-/

namespace SelectOutline.Text

/-- Whether the code point of `c` lies in one of the inclusive `ranges`. -/
def inRanges (ranges : List (Nat × Nat)) (c : Char) : Bool :=
  ranges.any fun range => Nat.ble range.1 c.toNat && Nat.ble c.toNat range.2

/-- Membership in a class, range by range. -/
theorem inRanges_iff {ranges : List (Nat × Nat)} {c : Char} :
    inRanges ranges c = true ↔
      ∃ range ∈ ranges, range.1 ≤ c.toNat ∧ c.toNat ≤ range.2 := by
  simp [inRanges]

end SelectOutline.Text
