import ResourceGraph.Number.Binary64

/-!
# Rounding to binary64

The binary64 number nearest to a fraction, ties going to the even significand. The quotient is taken in
units of `2 ^ -1074`; halving the unit's resolution `scale` times leaves at most 53 bits, and the carry of a
rounding up to `2 ^ 53` lands in the exponent by itself, since `magnitude = scale * 2 ^ 52 + significand`
holds for normal and subnormal numbers alike.
-/

namespace ResourceGraph

/-- The natural number nearest to `num / den`, the even one of two. -/
def roundDiv (num den : Nat) : Nat :=
  let quotient := num / den
  let remainder := num % den
  if 2 * remainder < den then quotient
  else if den < 2 * remainder then quotient + 1
  else quotient + quotient % 2

namespace Binary64

/-- The magnitude nearest to `num / den`; it may lie beyond the finite ones. -/
def nearestMagnitude (num den : Nat) : Nat :=
  let whole := num * Nat.pow 2 1074 / den
  let scale := whole.log2 + 1 - 53
  scale * Nat.pow 2 52 + roundDiv (num * Nat.pow 2 1074) (den * Nat.pow 2 scale)

/-- The number nearest to `num / den` with the given sign, an infinity if that is too large. -/
def nearest (negative : Bool) (num den : Nat) : Binary64 :=
  ofMagnitude negative (min (nearestMagnitude num den) infiniteMagnitude)

/-- The number nearest to an integer. -/
def ofInt (i : Int) : Binary64 :=
  nearest (i < 0) i.natAbs 1

end Binary64

end ResourceGraph
