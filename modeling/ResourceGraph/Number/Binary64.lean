/-!
# Binary64 numbers

A binary64 number is its 64 bits. Every finite one is a whole multiple of `2 ^ -1074`, so comparisons need
integers only: `units` is that multiple without its sign and `signedUnits` with it. `valueEq` compares by
value: the two zeros are equal and no NaN is.
-/

namespace ResourceGraph

/-- A binary64 number: a sign bit, eleven exponent bits and fifty-two fraction bits. -/
structure Binary64 where
  bits : UInt64
deriving DecidableEq

namespace Binary64

/-- Whether the sign bit is set. -/
def isNegative (x : Binary64) : Bool :=
  Nat.pow 2 63 ≤ x.bits.toNat

/-- The exponent and fraction bits as one number; it grows with the absolute value. -/
def magnitude (x : Binary64) : Nat :=
  x.bits.toNat % Nat.pow 2 63

/-- The magnitude of the infinities, above all finite ones and below all NaNs. -/
def infiniteMagnitude : Nat := 2047 * Nat.pow 2 52

def isFinite (x : Binary64) : Bool :=
  x.magnitude < infiniteMagnitude

def isNaN (x : Binary64) : Bool :=
  infiniteMagnitude < x.magnitude

/-- The number with the given sign and magnitude. -/
def ofMagnitude (negative : Bool) (magnitude : Nat) : Binary64 :=
  ⟨UInt64.ofNat ((if negative then Nat.pow 2 63 else 0) + magnitude)⟩

/-- The zero of the given sign. -/
def zero (negative : Bool) : Binary64 :=
  ofMagnitude negative 0

/-- The exponent bits; `0` stands for the zeros and the subnormal numbers. -/
def biasedExponent (x : Binary64) : Nat :=
  x.magnitude / Nat.pow 2 52

def fraction (x : Binary64) : Nat :=
  x.magnitude % Nat.pow 2 52

/-- The integer `m` of the value `m * 2 ^ (scale - 1074)`. -/
def significand (x : Binary64) : Nat :=
  if x.biasedExponent = 0 then x.fraction else Nat.pow 2 52 + x.fraction

/-- The number of doublings from `2 ^ -1074` to the unit of the significand. -/
def scale (x : Binary64) : Nat :=
  x.biasedExponent - 1

/-- The absolute value as a multiple of `2 ^ -1074`. -/
def units (x : Binary64) : Nat :=
  x.significand * Nat.pow 2 x.scale

/-- The value as a multiple of `2 ^ -1074`. -/
def signedUnits (x : Binary64) : Int :=
  if x.isNegative then -x.units else x.units

/-- Equality of values: both zeros are the same number, and a NaN equals nothing. -/
def valueEq (x y : Binary64) : Bool :=
  !x.isNaN && !y.isNaN && x.signedUnits == y.signedUnits

theorem magnitude_lt (x : Binary64) : x.magnitude < Nat.pow 2 63 :=
  Nat.mod_lt _ (by decide)

theorem not_isNaN_of_isFinite {x : Binary64} (h : x.isFinite) : x.isNaN = false := by
  simp only [isFinite, isNaN, decide_eq_true_eq, decide_eq_false_iff_not] at *
  omega

theorem valueEq_iff {x y : Binary64} :
    x.valueEq y ↔ x.isNaN = false ∧ y.isNaN = false ∧ x.signedUnits = y.signedUnits := by
  simp [valueEq, and_assoc]

theorem valueEq_comm (x y : Binary64) : x.valueEq y = y.valueEq x := by
  rw [Bool.eq_iff_iff, valueEq_iff, valueEq_iff]
  grind

theorem valueEq_self {x : Binary64} (h : x.isFinite) : x.valueEq x :=
  valueEq_iff.2 ⟨not_isNaN_of_isFinite h, not_isNaN_of_isFinite h, rfl⟩

theorem valueEq_trans {x y z : Binary64} (hxy : x.valueEq y) (hyz : y.valueEq z) : x.valueEq z := by
  rw [valueEq_iff] at *
  grind

end Binary64

end ResourceGraph
