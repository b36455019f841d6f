import Mathlib.Algebra.Order.Field.Basic
import Mathlib.Data.Rat.Cast.Order
import Mathlib.Tactic.FieldSimp
import Mathlib.Tactic.Linarith
import Mathlib.Tactic.Ring
import ResourceGraph.Number.Scaling

/-!
# Nearest binary64 numbers

`IsNearest x q` says that no finite binary64 number is nearer to the rational `q` than `x`, and that `x` is the
even one of two. Rounding gives it wherever it stays finite (`isNearest_nearest`), so an integer that is a
binary64 number is rounded to itself (`toRat_ofInt`).

All binary64 numbers of at least `2 ^ (scale + 52)` units are multiples of `2 ^ scale` units, and those below are
no nearer to a quotient in this range than `2 ^ (scale + 52)` is. So it is enough to compare with multiples, of
which `roundDiv` gives the nearest.
-/

namespace ResourceGraph

/-! ### Nearest multiples -/

theorem roundDiv_near (num : Nat) {den : Nat} (hden : 0 < den) :
    2 * ((roundDiv num den * den : Nat) - num : Int).natAbs ≤ den ∧
      (2 * ((roundDiv num den * den : Nat) - num : Int).natAbs = den → roundDiv num den % 2 = 0) := by
  have hdivision := Nat.div_add_mod' num den
  have hrest := Nat.mod_lt num hden
  have hsucc : (num / den + 1) * den = num / den * den + den := Nat.succ_mul _ _
  unfold roundDiv
  generalize num / den = quotient at *
  generalize num % den = remainder at *
  dsimp only
  split_ifs with hdown hup
  · omega
  · rw [hsucc]
    omega
  · rcases Nat.mod_two_eq_zero_or_one quotient with heven | hodd
    · rw [heven, Nat.add_zero]
      omega
    · rw [hodd, hsucc]
      omega

/-- No multiple of `den` is nearer to `num`, and if another is as near, this one is even. -/
theorem roundDiv_nearest (num : Nat) {den : Nat} (hden : 0 < den) (k : Nat) :
    ((roundDiv num den * den : Nat) - num : Int).natAbs ≤ ((k * den : Nat) - num : Int).natAbs ∧
      (((k * den : Nat) - num : Int).natAbs = ((roundDiv num den * den : Nat) - num : Int).natAbs →
        k = roundDiv num den ∨ roundDiv num den % 2 = 0) := by
  obtain ⟨hle, heven⟩ := roundDiv_near num hden
  generalize roundDiv num den = r at *
  rcases Nat.lt_trichotomy k r with hlt | rfl | hlt
  · -- two different multiples are at least `den` apart
    have hapart : k * den + den ≤ r * den := by
      rw [← Nat.succ_mul]
      exact Nat.mul_le_mul_right den hlt
    omega
  · exact ⟨Nat.le_refl _, fun _ => .inl rfl⟩
  · have hapart : r * den + den ≤ k * den := by
      rw [← Nat.succ_mul]
      exact Nat.mul_le_mul_right den hlt
    omega

namespace Binary64

/-! ### Parts of a number -/

theorem magnitude_eq (x : Binary64) : x.magnitude = x.scale * 2 ^ 52 + x.significand := by
  have hexponent : x.biasedExponent = x.magnitude / 2 ^ 52 := rfl
  have hfraction : x.fraction = x.magnitude % 2 ^ 52 := rfl
  rw [scale, significand, Nat.pow_eq]
  split <;> omega

theorem significand_lt (x : Binary64) : x.significand < 2 ^ 53 := by
  simp only [significand, fraction, Nat.pow_eq]
  split <;> omega

theorem scale_eq_zero_or (x : Binary64) : x.scale = 0 ∨ 2 ^ 52 ≤ x.significand := by
  simp only [scale, significand, Nat.pow_eq]
  split <;> omega

/-- A significand of `2 ^ 53` carries into the exponent, and the number is the same. -/
theorem units_of_magnitude {x : Binary64} {m s : Nat} (hmagnitude : x.magnitude = s * 2 ^ 52 + m)
    (hm : m ≤ 2 ^ 53) (hs : s = 0 ∨ 2 ^ 52 ≤ m) :
    x.units = m * 2 ^ s ∧ (m % 2 = 0 → x.significand % 2 = 0) := by
  have hparts := x.magnitude_eq
  have hlt := x.significand_lt
  have hscale := x.scale_eq_zero_or
  rw [units, Nat.pow_eq]
  rcases Nat.lt_or_eq_of_le hm with hm | rfl
  · obtain ⟨hsignificand, hs⟩ : x.significand = m ∧ x.scale = s := by omega
    rw [hsignificand, hs]
    exact ⟨rfl, id⟩
  · obtain ⟨hsignificand, hs⟩ : x.significand = 2 ^ 52 ∧ x.scale = s + 1 := by omega
    rw [hsignificand, hs, Nat.pow_succ']
    exact ⟨by ring, fun _ => rfl⟩

theorem toNat_bits_ofMagnitude (negative : Bool) {m : Nat} (hm : m < 2 ^ 63) :
    (ofMagnitude negative m).bits.toNat = (if negative then 2 ^ 63 else 0) + m := by
  have hlt : (if negative then 2 ^ 63 else 0) + m < 2 ^ 64 := by split <;> omega
  simp only [ofMagnitude, Nat.pow_eq]
  exact UInt64.toNat_ofNat_of_lt' hlt

theorem magnitude_ofMagnitude (negative : Bool) {m : Nat} (hm : m < 2 ^ 63) :
    (ofMagnitude negative m).magnitude = m := by
  rw [magnitude, toNat_bits_ofMagnitude negative hm, Nat.pow_eq]
  split <;> omega

theorem isNegative_ofMagnitude (negative : Bool) {m : Nat} (hm : m < 2 ^ 63) :
    (ofMagnitude negative m).isNegative = negative := by
  rw [isNegative, toNat_bits_ofMagnitude negative hm, Nat.pow_eq]
  cases negative
  · simpa using hm
  · simp

theorem isFinite_iff {x : Binary64} : x.isFinite ↔ x.magnitude < 2047 * 2 ^ 52 := by
  rw [isFinite, infiniteMagnitude, decide_eq_true_iff, Nat.pow_eq]

/-- The number with a significand of 53 bits, the carry out of these included. -/
theorem exists_units_eq_of_long (negative : Bool) {m s : Nat} (hm : m ≤ 2 ^ 53) (hs : s = 0 ∨ 2 ^ 52 ≤ m)
    (hfinite : s * 2 ^ 52 + m < 2047 * 2 ^ 52) :
    ∃ x : Binary64, x.isFinite ∧ x.isNegative = negative ∧ x.units = m * 2 ^ s := by
  have hlt : s * 2 ^ 52 + m < 2 ^ 63 := by omega
  have hmagnitude := magnitude_ofMagnitude negative hlt
  refine ⟨_, ?_, isNegative_ofMagnitude negative hlt, (units_of_magnitude hmagnitude hm hs).1⟩
  rw [isFinite_iff, hmagnitude]
  exact hfinite

/-- All multiples of a power of two that need no more than 53 bits are binary64 numbers. -/
theorem exists_units_eq (negative : Bool) {m s : Nat} (hm : m ≤ 2 ^ 53) (hs : s ≤ 2044) :
    ∃ x : Binary64, x.isFinite ∧ x.isNegative = negative ∧ x.units = m * 2 ^ s := by
  -- a significand that is too short is doubled until it is long enough or no scale is left
  induction s generalizing m with
  | zero => exact exists_units_eq_of_long negative hm (.inl rfl) (by omega)
  | succ s ih =>
    by_cases hlong : 2 ^ 52 ≤ m
    · exact exists_units_eq_of_long negative hm (.inr hlong) (by omega)
    · obtain ⟨x, hfinite, hsign, hunits⟩ := ih (m := 2 * m) (by omega) (by omega)
      exact ⟨x, hfinite, hsign, by rw [hunits]; ring⟩

/-! ### Rounding -/

section
variable (num den : Nat)

/-- How many bits of a quotient in units are rounded off. -/
def roundingScale : Nat :=
  (num / den).log2 + 1 - 53

/-- A quotient in units, rounded to 53 bits at most. -/
def roundedSignificand : Nat :=
  roundDiv num (den * 2 ^ roundingScale num den)

variable {den} (hden : 0 < den)
include hden

theorem lt_roundingScale : num < den * 2 ^ (roundingScale num den + 53) := by
  have hlog := Nat.lt_log2_self (n := num / den)
  have hpow : 2 ^ ((num / den).log2 + 1) ≤ 2 ^ (roundingScale num den + 53) :=
    Nat.pow_le_pow_right (by decide) (by rw [roundingScale]; omega)
  have hquotient := Nat.lt_of_lt_of_le hlog hpow
  rwa [Nat.div_lt_iff_lt_mul hden, Nat.mul_comm] at hquotient

theorem roundingScale_le : roundingScale num den = 0 ∨ den * 2 ^ (roundingScale num den + 52) ≤ num := by
  by_cases hscale : roundingScale num den = 0
  · exact .inl hscale
  · right
    have hquotient : num / den ≠ 0 := by
      intro hzero
      rw [roundingScale, hzero] at hscale
      exact hscale rfl
    have hlog : (num / den).log2 = roundingScale num den + 52 := by
      rw [roundingScale] at hscale ⊢
      omega
    have hpow := Nat.log2_self_le hquotient
    rw [hlog] at hpow
    rw [Nat.mul_comm]
    exact (Nat.le_div_iff_mul_le hden).1 hpow

theorem roundedSignificand_bounds :
    roundedSignificand num den ≤ 2 ^ 53 ∧ (roundingScale num den = 0 ∨ 2 ^ 52 ≤ roundedSignificand num den) := by
  have hunit : 0 < den * 2 ^ roundingScale num den := by positivity
  have hupper := lt_roundingScale num hden
  have hlower := roundingScale_le num hden
  have hnear := (roundDiv_near num hunit).1
  rw [Nat.pow_add, ← Nat.mul_assoc] at hupper hlower
  rw [roundedSignificand]
  generalize roundDiv num (den * 2 ^ roundingScale num den) = r at *
  generalize den * 2 ^ roundingScale num den = unit at *
  constructor
  · by_contra hr
    have hmul : (2 ^ 53 + 1) * unit ≤ r * unit := Nat.mul_le_mul_right unit (by omega)
    omega
  · refine hlower.imp_right fun hlower => ?_
    by_contra hr
    have hmul : (r + 1) * unit ≤ 2 ^ 52 * unit := Nat.mul_le_mul_right unit (by omega)
    rw [Nat.succ_mul] at hmul
    omega

/-- No number is nearer to the quotient than the rounded one, and if another is as near, this one is even. -/
theorem roundedSignificand_nearest (y : Binary64) :
    ((roundedSignificand num den * 2 ^ roundingScale num den * den : Nat) - num : Int).natAbs ≤
        ((y.units * den : Nat) - num : Int).natAbs ∧
      (((y.units * den : Nat) - num : Int).natAbs =
          ((roundedSignificand num den * 2 ^ roundingScale num den * den : Nat) - num : Int).natAbs →
        y.units = roundedSignificand num den * 2 ^ roundingScale num den ∨ roundedSignificand num den % 2 = 0) := by
  have hunit : 0 < den * 2 ^ roundingScale num den := by positivity
  have hassoc (k : Nat) : k * 2 ^ roundingScale num den * den = k * (den * 2 ^ roundingScale num den) := by ring
  have hnearest := roundDiv_nearest num hunit
  rw [← roundedSignificand] at hnearest
  rw [hassoc]
  by_cases hscale : roundingScale num den ≤ y.scale
  · -- the number is itself a multiple
    obtain ⟨extra, hextra⟩ := Nat.exists_eq_add_of_le hscale
    have hunits : y.units = y.significand * 2 ^ extra * 2 ^ roundingScale num den := by
      rw [units, Nat.pow_eq, hextra, Nat.pow_add]
      ring
    have hmultiple := hnearest (y.significand * 2 ^ extra)
    rw [hunits, hassoc]
    exact ⟨hmultiple.1, fun htie => (hmultiple.2 htie).imp_left fun heq => by rw [heq]⟩
  · -- the number lies below the multiple `2 ^ 52`, which does not exceed the quotient
    have hquotient := (roundingScale_le num hden).resolve_left (by omega)
    have hbelow : y.units < 2 ^ (roundingScale num den + 52) := by
      calc y.units = y.significand * 2 ^ y.scale := by rw [units, Nat.pow_eq]
        _ < 2 ^ 53 * 2 ^ y.scale := Nat.mul_lt_mul_of_pos_right y.significand_lt (by positivity)
        _ = 2 ^ (y.scale + 53) := by rw [← Nat.pow_add, Nat.add_comm]
        _ ≤ 2 ^ (roundingScale num den + 52) := Nat.pow_le_pow_right (by decide) (by omega)
    have hlt : y.units * den < den * 2 ^ (roundingScale num den + 52) := by
      rw [Nat.mul_comm]
      exact Nat.mul_lt_mul_of_pos_left hbelow hden
    have hpower := (hnearest (2 ^ 52)).1
    have hsplit : 2 ^ 52 * (den * 2 ^ roundingScale num den) = den * 2 ^ (roundingScale num den + 52) := by ring
    rw [hsplit] at hpower
    omega

end

/-! ### Values -/

/-- There are `2 ^ unitPlaces` units in `1`. -/
@[irreducible] def unitPlaces : Nat := 1074

theorem unitPlaces_eq : unitPlaces = 1074 := by
  unfold unitPlaces
  rfl

/-- The value of a finite number. -/
def toRat (x : Binary64) : ℚ :=
  x.signedUnits / 2 ^ unitPlaces

/-- The finite number `x` is as near to `q` as any. If another is as near, `x` is the one with the even
significand. -/
structure IsNearest (x : Binary64) (q : ℚ) : Prop where
  isFinite : x.isFinite
  abs_le : ∀ y : Binary64, y.isFinite → |x.toRat - q| ≤ |y.toRat - q|
  even_of_tie : ∀ y : Binary64, y.isFinite → |y.toRat - q| = |x.toRat - q| → y.toRat ≠ x.toRat →
    x.significand % 2 = 0

/-- The number `q` or, if `negative`, the number `-q`. -/
def withSign (negative : Bool) (q : ℚ) : ℚ :=
  if negative then -q else q

theorem abs_withSign (negative : Bool) {q : ℚ} (hq : 0 ≤ q) : |withSign negative q| = q := by
  cases negative
  · exact abs_of_nonneg hq
  · exact (abs_neg q).trans (abs_of_nonneg hq)

theorem abs_withSign_sub (negative : Bool) (p q : ℚ) : |withSign negative p - withSign negative q| = |p - q| := by
  cases negative
  · rfl
  · show |-p - -q| = |p - q|
    rw [neg_sub_neg, abs_sub_comm]

theorem toRat_eq_withSign (x : Binary64) : x.toRat = withSign x.isNegative (x.units / 2 ^ unitPlaces) := by
  rw [toRat, signedUnits, withSign]
  split
  · rw [Int.cast_neg, neg_div, Int.cast_natCast]
  · rw [Int.cast_natCast]

theorem abs_toRat (x : Binary64) : |x.toRat| = x.units / 2 ^ unitPlaces := by
  rw [toRat_eq_withSign, abs_withSign _ (by positivity)]

theorem toRat_inj {x y : Binary64} : x.toRat = y.toRat ↔ x.signedUnits = y.signedUnits := by
  have hunits : (2 : ℚ) ^ unitPlaces ≠ 0 := by positivity
  rw [toRat, toRat, div_left_inj' hunits, Int.cast_inj]

theorem valueEq_iff_toRat {x y : Binary64} (hx : x.isFinite) (hy : y.isFinite) :
    x.valueEq y ↔ x.toRat = y.toRat := by
  rw [valueEq_iff, toRat_inj, and_iff_right (not_isNaN_of_isFinite hx), and_iff_right (not_isNaN_of_isFinite hy)]

/-- A rational that is the value of a binary64 number is its own nearest number. -/
theorem IsNearest.toRat_eq {x y : Binary64} {q : ℚ} (h : x.IsNearest q) (hy : y.isFinite) (hq : y.toRat = q) :
    x.toRat = q := by
  have hle := h.abs_le y hy
  rw [hq, sub_self, abs_zero] at hle
  exact sub_eq_zero.1 (abs_nonpos_iff.1 hle)

/-! ### Rounding gives the nearest number -/

theorem nearestMagnitude_eq (num den : Nat) : nearestMagnitude num den =
    roundingScale (num * 2 ^ unitPlaces) den * 2 ^ 52 + roundedSignificand (num * 2 ^ unitPlaces) den := by
  rw [nearestMagnitude, ← unitPlaces_eq]
  rfl

theorem magnitude_nearest (negative : Bool) (num den : Nat) :
    (nearest negative num den).magnitude = min (nearestMagnitude num den) (2047 * 2 ^ 52) :=
  magnitude_ofMagnitude negative (Nat.lt_of_le_of_lt (Nat.min_le_right ..) (by decide))

theorem isNegative_nearest (negative : Bool) (num den : Nat) :
    (nearest negative num den).isNegative = negative :=
  isNegative_ofMagnitude negative (Nat.lt_of_le_of_lt (Nat.min_le_right ..) (by decide))

section
variable (negative : Bool) (num : Nat) {den : Nat} (hden : 0 < den)
include hden

theorem units_nearest (hfinite : (nearest negative num den).isFinite) :
    (nearest negative num den).units =
        roundedSignificand (num * 2 ^ unitPlaces) den * 2 ^ roundingScale (num * 2 ^ unitPlaces) den ∧
      (roundedSignificand (num * 2 ^ unitPlaces) den % 2 = 0 → (nearest negative num den).significand % 2 = 0) := by
  have hmagnitude := magnitude_nearest negative num den
  rw [isFinite_iff] at hfinite
  rw [nearestMagnitude_eq] at hmagnitude
  obtain ⟨hle, hlong⟩ := roundedSignificand_bounds (num * 2 ^ unitPlaces) hden
  exact units_of_magnitude (by omega) hle hlong

theorem isFinite_nearest {k : Nat} (hk : k ≤ 1023) (hsmall : num < den * 2 ^ k) :
    (nearest negative num den).isFinite := by
  have hunits : num * 2 ^ unitPlaces < den * 2 ^ (k + unitPlaces) := by
    rw [Nat.pow_add, ← Nat.mul_assoc]
    exact Nat.mul_lt_mul_of_pos_right hsmall (by positivity)
  have hscale : roundingScale (num * 2 ^ unitPlaces) den ≤ 2044 := by
    rcases roundingScale_le (num * 2 ^ unitPlaces) hden with hzero | hle
    · omega
    · have hpow := Nat.lt_of_mul_lt_mul_left (Nat.lt_of_le_of_lt hle hunits)
      have hexponent := (Nat.pow_lt_pow_iff_right (by decide)).1 hpow
      have hplaces := unitPlaces_eq
      omega
  have hmagnitude := magnitude_nearest negative num den
  have hsignificand := (roundedSignificand_bounds (num * 2 ^ unitPlaces) hden).1
  rw [nearestMagnitude_eq] at hmagnitude
  rw [isFinite_iff]
  omega

theorem abs_units_sub (x : Binary64) : |(x.units : ℚ) / 2 ^ unitPlaces - num / den| =
    ((x.units * den : Nat) - (num * 2 ^ unitPlaces : Nat) : Int).natAbs / (2 ^ unitPlaces * den) := by
  have hunits : (0 : ℚ) < 2 ^ unitPlaces := by positivity
  have hpos : (0 : ℚ) < den := Nat.cast_pos.2 hden
  rw [div_sub_div _ _ hunits.ne' hpos.ne', abs_div, abs_of_pos (mul_pos hunits hpos), Nat.cast_natAbs]
  push_cast
  rw [mul_comm ((2 : ℚ) ^ unitPlaces) num]

/-- The absolute values are compared first, since the rounded number has the sign of the quotient. -/
theorem abs_units_nearest (hfinite : (nearest negative num den).isFinite) (y : Binary64) :
    |((nearest negative num den).units : ℚ) / 2 ^ unitPlaces - num / den| ≤
        |(y.units : ℚ) / 2 ^ unitPlaces - num / den| ∧
      (|(y.units : ℚ) / 2 ^ unitPlaces - num / den| =
          |((nearest negative num den).units : ℚ) / 2 ^ unitPlaces - num / den| →
        y.units = (nearest negative num den).units ∨ (nearest negative num den).significand % 2 = 0) := by
  have hpos : (0 : ℚ) < 2 ^ unitPlaces * den := by positivity
  obtain ⟨hunits, heven⟩ := units_nearest negative num hden hfinite
  obtain ⟨hle, htie⟩ := roundedSignificand_nearest (num * 2 ^ unitPlaces) hden y
  rw [← hunits] at hle htie
  rw [abs_units_sub num hden, abs_units_sub num hden, div_le_div_iff_of_pos_right hpos, div_left_inj' hpos.ne',
    Nat.cast_le, Nat.cast_inj]
  exact ⟨hle, fun heq => (htie heq).imp_right heven⟩

/-- A rounded quotient is the nearest number to it, unless it is rounded to an infinity. -/
theorem isNearest_nearest (hfinite : (nearest negative num den).isFinite) :
    (nearest negative num den).IsNearest (withSign negative (num / den)) := by
  have hquotient : |withSign negative ((num : ℚ) / den)| = num / den := abs_withSign negative (by positivity)
  have hself : |(nearest negative num den).toRat - withSign negative (num / den)| =
      |((nearest negative num den).units : ℚ) / 2 ^ unitPlaces - num / den| := by
    rw [toRat_eq_withSign, isNegative_nearest, abs_withSign_sub]
  have hother (y : Binary64) : |(y.units : ℚ) / 2 ^ unitPlaces - num / den| ≤
      |y.toRat - withSign negative (num / den)| := by
    have habs := abs_abs_sub_abs_le y.toRat (withSign negative (num / den))
    rwa [abs_toRat, hquotient] at habs
  have hle (y : Binary64) : |(nearest negative num den).toRat - withSign negative (num / den)| ≤
      |y.toRat - withSign negative (num / den)| := by
    rw [hself]
    exact (abs_units_nearest negative num hden hfinite y).1.trans (hother y)
  refine ⟨hfinite, fun y _ => hle y, fun y _ htie hne => ?_⟩
  have hunits := (abs_units_nearest negative num hden hfinite y).1
  rcases (abs_units_nearest negative num hden hfinite y).2
    (le_antisymm ((hother y).trans (htie.trans hself).le) hunits) with hsame | heven
  · -- then the two differ in their sign only, and zero would be nearer than both
    exfalso
    have habs : |y.toRat| = |(nearest negative num den).toRat| := by rw [abs_toRat, abs_toRat, hsame]
    have hneg := (abs_eq_abs.1 habs).resolve_left hne
    obtain ⟨zero, -, -, hzero⟩ := exists_units_eq false (Nat.zero_le (2 ^ 53)) (Nat.zero_le 2044)
    have hzero : zero.toRat = 0 := by
      rw [← abs_eq_zero, abs_toRat, hzero]
      simp
    have hnearer := hle zero
    rw [hzero, zero_sub, abs_neg] at hnearer
    generalize (nearest negative num den).toRat = x at *
    generalize withSign negative ((num : ℚ) / den) = q at *
    rw [hneg] at htie hne
    rcases abs_eq_abs.1 htie with heq | heq
    · exact hne (by linarith)
    · have hq : q = 0 := by linarith
      rw [hq, sub_zero, abs_zero, abs_nonpos_iff] at hnearer
      exact hne (by rw [hnearer, neg_zero])
  · exact heven

end

/-! ### Numbers that are kept -/

theorem exists_toRat_eq (negative : Bool) {n : Nat} (hn : n ≤ 2 ^ 53) :
    ∃ x : Binary64, x.isFinite ∧ x.toRat = withSign negative n := by
  have hplaces : unitPlaces ≤ 2044 := by
    rw [unitPlaces_eq]
    decide
  obtain ⟨x, hfinite, hsign, hunits⟩ := exists_units_eq negative hn hplaces
  have hne : (2 : ℚ) ^ unitPlaces ≠ 0 := by positivity
  refine ⟨x, hfinite, ?_⟩
  rw [toRat_eq_withSign, hsign, hunits, Nat.cast_mul, Nat.cast_pow, Nat.cast_ofNat, mul_div_cancel_right₀ _ hne]

theorem withSign_natAbs (i : Int) : withSign (i < 0) (i.natAbs / (1 : Nat)) = i := by
  rw [Nat.cast_one, div_one, Nat.cast_natAbs, withSign]
  by_cases hi : i < 0
  · simp [hi, abs_of_neg hi]
  · simp [hi, abs_of_nonneg (not_lt.1 hi)]

/-- An integer of 64 bits is rounded to the nearest number. -/
theorem isNearest_ofInt {i : Int} (hi : i.natAbs < 2 ^ 64) : (ofInt i).IsNearest i := by
  have hsmall : i.natAbs < 1 * 2 ^ 64 := by rwa [Nat.one_mul]
  have hfinite := isFinite_nearest (i < 0) i.natAbs Nat.one_pos (by decide) hsmall
  have hnearest := isNearest_nearest (i < 0) i.natAbs Nat.one_pos hfinite
  rwa [withSign_natAbs] at hnearest

theorem toRat_ofInt {i : Int} (hi : i.natAbs ≤ 2 ^ 53) : (ofInt i).toRat = i := by
  obtain ⟨x, hfinite, hx⟩ := exists_toRat_eq (i < 0) hi
  refine (isNearest_ofInt (Nat.lt_of_le_of_lt hi (by decide))).toRat_eq hfinite ?_
  rw [hx, ← withSign_natAbs i, Nat.cast_one, div_one]

end Binary64

end ResourceGraph
