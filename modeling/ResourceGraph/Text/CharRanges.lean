/-!
# Sets of characters given by ranges

Properties of characters beyond ASCII are tables of code point ranges. A table lists its ranges in
increasing order, both ends included.
-/

namespace ResourceGraph.Text

/-- A set of characters as ranges of code points, both ends included. -/
abbrev CharRanges := List (Nat × Nat)

/-- Whether the code point of `c` lies in one of the ranges. -/
def CharRanges.contains (ranges : CharRanges) (c : Char) : Bool :=
  ranges.any fun range => range.1 ≤ c.toNat && c.toNat ≤ range.2

/-- A table says nothing about the characters below its first range. -/
theorem CharRanges.contains_eq_false_of_lt {ranges : CharRanges} {bound : Nat} {c : Char}
    (h : ranges.all fun range => bound ≤ range.1) (hc : c.toNat < bound) : ranges.contains c = false := by
  rw [contains, List.any_eq_false]
  intro range hrange
  have hlow := List.all_eq_true.1 h range hrange
  simp only [decide_eq_true_eq] at hlow
  simp only [Bool.and_eq_true, decide_eq_true_eq]
  omega

end ResourceGraph.Text
