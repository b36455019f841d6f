import ResourceGraph.Number.Scaling

/-!
# Shortest decimals

The decimal number with the fewest digits among those that round to a given binary64 number, and the nearest
of them. Lengths and positions are counted in steps of `2 ^ -1076 * 10 ^ -340`, in which the number, the two
ends of the interval that rounds to it, and all decimal grids of up to 17 digits are whole.
-/

namespace ResourceGraph

/-- How a number half way between its two nearest candidates is rounded. -/
inductive TieRule
  | up
  | toEven
deriving DecidableEq

/-- How many decimal digits `n` is written with. -/
def decimalWidth (n : Nat) : Nat :=
  (Nat.toDigits 10 n).length

namespace Binary64

/-- The steps in one unit of `2 ^ -1076`. -/
def stepsPerQuarter : Nat := Nat.pow 10 340

/-- The absolute value of `x` in steps. -/
def steps (x : Binary64) : Nat :=
  4 * x.units * stepsPerQuarter

/-- Half the distance to the next number away from zero. -/
def gapAbove (x : Binary64) : Nat :=
  2 * Nat.pow 2 x.scale * stepsPerQuarter

/-- Half the distance to the next number towards zero, which is narrower below a power of two. -/
def gapBelow (x : Binary64) : Nat :=
  if x.significand = Nat.pow 2 52 ∧ 0 < x.scale then Nat.pow 2 x.scale * stepsPerQuarter else x.gapAbove

/-- Whether a point rounds to the absolute value of `x`; a half-way point goes to the even significand. -/
def isNearestTo (x : Binary64) (point : Nat) : Bool :=
  if x.significand % 2 = 0 then x.steps - x.gapBelow ≤ point && point ≤ x.steps + x.gapAbove
  else x.steps - x.gapBelow < point && point < x.steps + x.gapAbove

/-- The candidate of a grid for `x`: the nearer of the two grid points around it that round to `x`. -/
def onGrid? (x : Binary64) (tie : TieRule) (grid : Nat) : Option Nat :=
  let below := x.steps / grid
  let rest := x.steps % grid
  let goUp := grid < 2 * rest || (2 * rest == grid && (tie == .up || below % 2 == 1))
  match x.isNearestTo (below * grid), x.isNearestTo ((below + 1) * grid) with
  | true, true => some (if goUp then below + 1 else below)
  | true, false => some below
  | false, true => some (below + 1)
  | false, false => none

/-- The shortest decimal that rounds to the absolute value of `x`, the nearest of that length. -/
def shortest (tie : TieRule) (x : Binary64) : Decimal :=
  let width := decimalWidth (x.steps / Nat.pow 2 1076)
  let candidate (count : Nat) : Option Decimal :=
    (x.onGrid? tie (Nat.pow 2 1076 * Nat.pow 10 (width - count))).map fun digits =>
      { digits, exponent := (width - count : Nat) - 340 }
  ((List.range' 1 17).findSome? candidate).getD { digits := 0, exponent := 0 }

end Binary64

end ResourceGraph
