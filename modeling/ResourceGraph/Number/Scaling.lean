import ResourceGraph.Number.Rounding

/-!
# Decimal numbers in binary64

A decimal number is taken into binary64 in steps, each of which is rounded: first its digits, then the product
with a power of ten or the quotient by one, where the power is itself the nearest binary64 number. Each step
is off by half a unit at most, yet together they may miss the nearest number. Powers beyond `10 ^ 308` have
no binary64 number: as factors they are refused, as divisors they are split.
-/

namespace ResourceGraph

/-- A decimal number `digits * 10 ^ exponent`. -/
structure Decimal where
  digits : Nat
  exponent : Int
deriving DecidableEq

namespace Binary64

/-- The number nearest to the product of two finite numbers. -/
def mul (x y : Binary64) : Binary64 :=
  nearest (x.isNegative != y.isNegative) (x.units * y.units) (Nat.pow 2 1074 * Nat.pow 2 1074)

/-- The number nearest to the quotient of two finite numbers, the second not a zero. -/
def div (x y : Binary64) : Binary64 :=
  nearest (x.isNegative != y.isNegative) x.units y.units

/-- The greatest exponent of a power of ten that does not round to an infinity. -/
def maxPowerOfTen : Nat := 308

/-- The number nearest to `10 ^ n`. -/
def powerOfTen (n : Nat) : Binary64 :=
  nearest false (Nat.pow 10 n) 1

/-- Divides by the greatest power of ten `count` times; a zero stays what it is. -/
def divByMaxPower (x : Binary64) : (count : Nat) → Binary64
  | 0 => x
  | count + 1 => if x.magnitude = 0 then x else (x.div (powerOfTen maxPowerOfTen)).divByMaxPower count

/-- Divides by `10 ^ n`, first by its greatest possible factors. -/
def divByPowerOfTen (x : Binary64) (n : Nat) : Binary64 :=
  (x.divByMaxPower (n / maxPowerOfTen)).div (powerOfTen (n % maxPowerOfTen))

/-- A decimal number with the given sign, `none` if it is too large. -/
def ofDecimal? (negative : Bool) (number : Decimal) : Option Binary64 :=
  if number.digits = 0 then some (zero negative)
  else if maxPowerOfTen < number.exponent then none
  else
    let digits := nearest negative number.digits 1
    let x :=
      if number.exponent = 0 then digits
      else if number.exponent < 0 then digits.divByPowerOfTen number.exponent.natAbs
      else digits.mul (powerOfTen number.exponent.natAbs)
    if x.isFinite then some x else none

theorem isFinite_of_ofDecimal? {negative : Bool} {number : Decimal} {x : Binary64}
    (h : ofDecimal? negative number = some x) : x.isFinite := by
  unfold ofDecimal? at h
  split at h
  · obtain rfl := Option.some.inj h
    cases negative <;> decide
  · split at h
    · simp at h
    · grind

end Binary64

end ResourceGraph
