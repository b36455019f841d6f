import ResourceGraph.Json.Basic
import ResourceGraph.Proofs.NearestNumber

/-!
# Decimal numbers in rounded steps

What a written number becomes in binary64. Its digits are rounded, the power of ten is rounded, and so is their
product or quotient; `IsScaled` says so with the number nearest to what each step is given. The outcome need not
be the number nearest to what is written. It is if there is one rounding only (`Decimal.RoundsOnce`), because the
digits stand alone or because they and the power of ten are binary64 numbers themselves.
-/

namespace ResourceGraph

namespace Binary64

/-! ### One step -/

theorem isFinite_zero (negative : Bool) : (zero negative).isFinite := by
  cases negative <;> decide

theorem toRat_zero (negative : Bool) : (zero negative).toRat = 0 := by
  have hunits : (zero negative).units = 0 := by cases negative <;> decide
  rw [← abs_eq_zero, abs_toRat, hunits, Nat.cast_zero, zero_div]

theorem isNearest_self {x : Binary64} (hx : x.isFinite) : x.IsNearest x.toRat := by
  have hself : |x.toRat - x.toRat| = 0 := by rw [sub_self, abs_zero]
  refine ⟨hx, fun y _ => ?_, fun y _ htie hne => ?_⟩
  · rw [hself]
    exact abs_nonneg _
  · rw [hself, abs_eq_zero] at htie
    exact absurd (sub_eq_zero.1 htie) hne

/-- The number of the other sign. -/
theorem exists_toRat_neg {x : Binary64} (hx : x.isFinite) : ∃ y : Binary64, y.isFinite ∧ y.toRat = -x.toRat := by
  have hmagnitude := magnitude_ofMagnitude (!x.isNegative) x.magnitude_lt
  have hsign := isNegative_ofMagnitude (!x.isNegative) x.magnitude_lt
  generalize ofMagnitude (!x.isNegative) x.magnitude = y at hmagnitude hsign
  refine ⟨y, by rwa [isFinite, hmagnitude], ?_⟩
  have hunits : y.units = x.units := by
    unfold units significand scale biasedExponent fraction
    rw [hmagnitude]
  rw [toRat_eq_withSign, toRat_eq_withSign, hsign, hunits]
  cases x.isNegative <;> simp [withSign]

theorem withSign_mul (a b : Bool) (p q : ℚ) : withSign (a != b) (p * q) = withSign a p * withSign b q := by
  cases a <;> cases b <;> simp [withSign]

theorem withSign_div (a b : Bool) (p q : ℚ) : withSign (a != b) (p / q) = withSign a p / withSign b q := by
  cases a <;> cases b <;> simp [withSign, neg_div, div_neg]

theorem mul_eq (x y : Binary64) : x.mul y =
    nearest (x.isNegative != y.isNegative) (x.units * y.units) (2 ^ unitPlaces * 2 ^ unitPlaces) := by
  rw [mul, ← unitPlaces_eq]
  rfl

theorem isNearest_mul {x y : Binary64} (hfinite : (x.mul y).isFinite) : (x.mul y).IsNearest (x.toRat * y.toRat) := by
  rw [mul_eq] at hfinite ⊢
  have hnearest := isNearest_nearest _ _ (by positivity) hfinite
  have hvalue : ((x.units * y.units : Nat) : ℚ) / (2 ^ unitPlaces * 2 ^ unitPlaces : Nat) =
      x.units / 2 ^ unitPlaces * (y.units / 2 ^ unitPlaces) := by
    push_cast
    rw [div_mul_div_comm]
  rwa [hvalue, withSign_mul, ← toRat_eq_withSign, ← toRat_eq_withSign] at hnearest

theorem isNearest_div {x y : Binary64} (hy : 0 < y.units) (hfinite : (x.div y).isFinite) :
    (x.div y).IsNearest (x.toRat / y.toRat) := by
  have hnearest := isNearest_nearest (x.isNegative != y.isNegative) x.units hy hfinite
  have hunits : (2 : ℚ) ^ unitPlaces ≠ 0 := by positivity
  rwa [← div_div_div_cancel_right₀ hunits, withSign_div, ← toRat_eq_withSign, ← toRat_eq_withSign] at hnearest

namespace IsNearest
variable {x y : Binary64} {q : ℚ}

theorem le_toRat (h : x.IsNearest q) (hy : y.isFinite) (hle : y.toRat ≤ q) : y.toRat ≤ x.toRat := by
  by_contra hlt
  have hnear := h.abs_le y hy
  rw [abs_of_nonpos (by linarith), abs_of_nonpos (by linarith)] at hnear
  linarith

/-- Zero is not nearer. -/
theorem abs_toRat_le (h : x.IsNearest q) : |x.toRat| ≤ 2 * |q| := by
  have hnear := h.abs_le (zero false) (isFinite_zero false)
  rw [toRat_zero, zero_sub, abs_neg] at hnear
  have htriangle := abs_sub_abs_le_abs_sub x.toRat q
  linarith

end IsNearest

/-! ### Powers of ten -/

theorem isFinite_powerOfTen {n : Nat} (hn : n ≤ maxPowerOfTen) : (powerOfTen n).isFinite := by
  obtain rfl | hlt := Nat.eq_or_lt_of_le hn
  · decide +kernel
  · have hle (m : Nat) (hm : n ≤ m) : 10 ^ n ≤ 10 ^ m := Nat.pow_le_pow_right (by decide) hm
    have hpower : 10 ^ 307 < 1 * 2 ^ 1020 := by decide +kernel
    exact isFinite_nearest false (10 ^ n) Nat.one_pos (by decide)
      (Nat.lt_of_le_of_lt (hle 307 (Nat.le_of_lt_succ hlt)) hpower)

theorem isNearest_powerOfTen {n : Nat} (hn : n ≤ maxPowerOfTen) : (powerOfTen n).IsNearest (10 ^ n) := by
  have hnearest := isNearest_nearest false (10 ^ n) Nat.one_pos (isFinite_powerOfTen hn)
  rwa [Nat.cast_one, div_one, Nat.cast_pow, Nat.cast_ofNat] at hnearest

theorem natCast_le_powerOfTen {m n : Nat} (hm : m ≤ 2 ^ 53) (hn : n ≤ maxPowerOfTen) (hle : m ≤ 10 ^ n) :
    m ≤ (powerOfTen n).toRat := by
  obtain ⟨y, hfinite, hy⟩ := exists_toRat_eq false hm
  have hle' : y.toRat ≤ 10 ^ n := by
    rw [hy]
    show (m : ℚ) ≤ 10 ^ n
    exact_mod_cast hle
  exact (le_of_eq hy.symm).trans ((isNearest_powerOfTen hn).le_toRat hfinite hle')

theorem units_powerOfTen_pos {n : Nat} (hn : n ≤ maxPowerOfTen) : 0 < (powerOfTen n).units := by
  have hone := natCast_le_powerOfTen (m := 1) (by decide) hn (Nat.one_le_pow _ _ (by decide))
  rw [Nat.pos_iff_ne_zero]
  intro hzero
  have hvalue : (powerOfTen n).toRat = 0 := by
    rw [← abs_eq_zero, abs_toRat, hzero, Nat.cast_zero, zero_div]
  rw [hvalue] at hone
  norm_num at hone

/-- The small powers of ten are binary64 numbers, since `5 ^ 22` has at most 53 bits. -/
theorem exists_toRat_eq_pow_ten {n : Nat} (hn : n ≤ 22) : ∃ y : Binary64, y.isFinite ∧ y.toRat = 10 ^ n := by
  have hfive : 5 ^ n ≤ 2 ^ 53 := (Nat.pow_le_pow_right (by decide) hn).trans (by decide)
  have hplaces := unitPlaces_eq
  obtain ⟨y, hfinite, hsign, hunits⟩ := exists_units_eq false hfive (s := n + unitPlaces) (by omega)
  have hne : (2 : ℚ) ^ unitPlaces ≠ 0 := by positivity
  refine ⟨y, hfinite, ?_⟩
  rw [toRat_eq_withSign, hsign, hunits, Nat.pow_add, ← Nat.mul_assoc, ← Nat.mul_pow, Nat.cast_mul, Nat.cast_pow,
    Nat.cast_pow, Nat.cast_ofNat, mul_div_cancel_right₀ _ hne]
  norm_num [withSign]

/-! ### Quotients by powers of ten -/

/-- What dividing `x` by `10 ^ n` gives: it is divided by `10 ^ 308` as often as that goes into the power, then by
what is left of it. -/
inductive IsQuotient : Binary64 → Nat → Binary64 → Prop
  | last {x y power : Binary64} {n : Nat} : n < 308 → power.IsNearest (10 ^ n) →
    y.IsNearest (x.toRat / power.toRat) → IsQuotient x n y
  | step {x y z power : Binary64} {n : Nat} : power.IsNearest (10 ^ 308) → z.IsNearest (x.toRat / power.toRat) →
    IsQuotient z n y → IsQuotient x (n + 308) y

theorem isFinite_div {x power : Binary64} (hx : |x.toRat| ≤ 2 ^ 65) (hpower : 1 ≤ power.toRat) :
    (x.div power).isFinite := by
  have hunits : (0 : ℚ) < 2 ^ unitPlaces := by positivity
  have hpower' := hpower.trans (le_abs_self _)
  rw [abs_toRat, le_div_iff₀ hunits, one_mul] at hpower'
  rw [abs_toRat, div_le_iff₀ hunits] at hx
  have hpos : 0 < power.units := by
    rw [← Nat.cast_pos (α := ℚ)]
    exact hunits.trans_le hpower'
  have hle : x.units ≤ power.units * 2 ^ 65 := by
    rw [← Nat.cast_le (α := ℚ), Nat.cast_mul, Nat.cast_pow, Nat.cast_ofNat]
    linarith
  exact isFinite_nearest _ _ hpos (k := 66) (by decide) (by omega)

/-- The bound on `x` is kept by every step, so that none of them is infinite. -/
theorem isQuotient_divByMaxPower {r : Nat} (hr : r < 308) (count : Nat) :
    ∀ x : Binary64, x.isFinite → |x.toRat| ≤ 2 ^ 65 →
      IsQuotient x (r + count * 308) ((x.divByMaxPower count).div (powerOfTen r)) := by
  have hmax : maxPowerOfTen = 308 := rfl
  induction count with
  | zero =>
    intro x _ hx
    have hr' : r ≤ maxPowerOfTen := by omega
    have hone := natCast_le_powerOfTen (m := 1) (by decide) hr' (Nat.one_le_pow _ _ (by decide))
    rw [Nat.cast_one] at hone
    rw [Nat.zero_mul, Nat.add_zero]
    exact .last hr (isNearest_powerOfTen hr') (isNearest_div (units_powerOfTen_pos hr') (isFinite_div hx hone))
  | succ count ih =>
    intro x hfinite hx
    have htwo := natCast_le_powerOfTen (m := 2) (by decide) (Nat.le_refl maxPowerOfTen)
      (Nat.le_self_pow (by decide) 10 |>.trans' (by decide))
    rw [Nat.cast_ofNat] at htwo
    have hpower := isNearest_powerOfTen (Nat.le_refl maxPowerOfTen)
    rw [hmax] at hpower
    rw [Nat.succ_mul, ← Nat.add_assoc, divByMaxPower]
    split
    · -- a zero is not divided, but dividing it would not change it
      have hzero : x.toRat = 0 := by
        rw [← abs_eq_zero, abs_toRat]
        simp [*, units, significand, biasedExponent, fraction]
      have hself : x.divByMaxPower count = x := by
        cases count with
        | zero => rfl
        | succ count => rw [divByMaxPower, if_pos ‹_›]
      have hnearest : x.IsNearest (x.toRat / (powerOfTen 308).toRat) := by
        have hkeep := isNearest_self hfinite
        rw [hzero] at hkeep ⊢
        rwa [zero_div]
      have hrest := ih x hfinite hx
      rw [hself] at hrest
      exact .step hpower hnearest hrest
    · have hdiv := isFinite_div hx (one_le_two.trans htwo)
      have hnearest := isNearest_div (units_powerOfTen_pos (Nat.le_refl maxPowerOfTen)) hdiv
      have hbound : |(x.div (powerOfTen maxPowerOfTen)).toRat| ≤ 2 ^ 65 := by
        have hpos : 0 < (powerOfTen maxPowerOfTen).toRat := two_pos.trans_le htwo
        have hquotient : 2 * |x.toRat / (powerOfTen maxPowerOfTen).toRat| ≤ |x.toRat| := by
          rw [abs_div, abs_of_pos hpos, mul_div_assoc', div_le_iff₀ hpos]
          have := mul_le_mul_of_nonneg_left htwo (abs_nonneg x.toRat)
          linarith
        exact (hnearest.abs_toRat_le.trans hquotient).trans hx
      exact .step hpower hnearest (ih _ hdiv hbound)

theorem isNegative_powerOfTen (n : Nat) : (powerOfTen n).isNegative = false :=
  isNegative_nearest false _ 1

theorem isNegative_div_powerOfTen (x : Binary64) (n : Nat) :
    (x.div (powerOfTen n)).isNegative = x.isNegative := by
  rw [div, isNegative_nearest, isNegative_powerOfTen, Bool.bne_false]

theorem isNegative_divByMaxPower (x : Binary64) (count : Nat) :
    (x.divByMaxPower count).isNegative = x.isNegative := by
  induction count generalizing x with
  | zero => rfl
  | succ count ih =>
    rw [divByMaxPower]
    split
    · rfl
    · rw [ih, isNegative_div_powerOfTen]

/-! ### Decimal numbers -/

/-- What a decimal number with a sign becomes. -/
inductive IsScaled (negative : Bool) (number : Decimal) (x : Binary64) : Prop
  | zero : number.digits = 0 → x = .zero negative → IsScaled negative number x
  | alone : number.exponent = 0 → x.IsNearest (withSign negative number.digits) → IsScaled negative number x
  | product {digits power : Binary64} {n : Nat} : number.digits ≠ 0 → number.exponent = n → 0 < n →
    digits.IsNearest (withSign negative number.digits) → power.IsNearest (10 ^ n) →
    x.IsNearest (digits.toRat * power.toRat) → IsScaled negative number x
  | quotient {digits : Binary64} {n : Nat} : number.digits ≠ 0 → number.exponent = -n → 0 < n →
    digits.IsNearest (withSign negative number.digits) → IsQuotient digits n x → IsScaled negative number x

section
variable {negative : Bool} {number : Decimal} {x : Binary64}

theorem ofDecimal?_cases (h : ofDecimal? negative number = some x) :
    number.digits = 0 ∧ x = zero negative ∨
    number.digits ≠ 0 ∧ x.isFinite ∧ (number.exponent = 0 ∧ x = nearest negative number.digits 1 ∨
      (∃ n ≤ maxPowerOfTen, number.exponent = n ∧ 0 < n ∧
        x = (nearest negative number.digits 1).mul (powerOfTen n)) ∨
      ∃ n : Nat, number.exponent = -n ∧ 0 < n ∧ x = (nearest negative number.digits 1).divByPowerOfTen n) := by
  have hfinite := isFinite_of_ofDecimal? h
  unfold ofDecimal? at h
  split at h
  · exact .inl ⟨‹_›, (Option.some.inj h).symm⟩
  split at h
  · exact absurd h (by simp)
  refine .inr ⟨‹_›, hfinite, ?_⟩
  obtain ⟨-, heq⟩ := Option.ite_none_right_eq_some.1 h
  obtain rfl := Option.some.inj heq
  split
  · exact .inl ⟨‹_›, rfl⟩
  split
  · exact .inr (.inr ⟨number.exponent.natAbs, by omega, by omega, rfl⟩)
  · exact .inr (.inl ⟨number.exponent.natAbs, by omega, by omega, by omega, rfl⟩)

/-- The steps by which a decimal number is taken into binary64 are those of `IsScaled`. -/
theorem isScaled_of_ofDecimal? (hdigits : number.digits < 2 ^ 64) (h : ofDecimal? negative number = some x) :
    IsScaled negative number x := by
  have hone : number.digits < 1 * 2 ^ 64 := by omega
  have hrounded := isNearest_nearest negative number.digits Nat.one_pos
    (isFinite_nearest negative number.digits Nat.one_pos (by decide) hone)
  rw [Nat.cast_one, div_one] at hrounded
  rcases ofDecimal?_cases h with ⟨hzero, rfl⟩ | ⟨hne, hfinite, ⟨hexponent, rfl⟩ | ⟨n, hn, hexponent, hpos, rfl⟩ |
    ⟨n, hexponent, hpos, rfl⟩⟩
  · exact .zero hzero rfl
  · exact .alone hexponent hrounded
  · exact .product hne hexponent hpos hrounded (isNearest_powerOfTen hn) (isNearest_mul hfinite)
  · have hbound := hrounded.abs_toRat_le
    rw [abs_withSign _ (by positivity)] at hbound
    have hcast : (number.digits : ℚ) ≤ 2 ^ 64 := by exact_mod_cast hdigits.le
    have hquotient := isQuotient_divByMaxPower (Nat.mod_lt n (by decide : 0 < 308)) (n / 308) _ hrounded.isFinite
      (by linarith)
    rw [Nat.mul_comm, Nat.mod_add_div] at hquotient
    exact .quotient hne hexponent hpos hrounded hquotient

theorem isNegative_of_ofDecimal? (h : ofDecimal? negative number = some x) : x.isNegative = negative := by
  rcases ofDecimal?_cases h with ⟨-, rfl⟩ | ⟨-, -, ⟨-, rfl⟩ | ⟨n, -, -, -, rfl⟩ | ⟨n, -, -, rfl⟩⟩
  · cases negative <;> decide
  · exact isNegative_nearest ..
  · rw [mul, isNegative_nearest, isNegative_nearest, isNegative_powerOfTen, Bool.bne_false]
  · rw [divByPowerOfTen, isNegative_div_powerOfTen, isNegative_divByMaxPower, isNegative_nearest]

end

end Binary64

/-- At most one of the steps by which a decimal number is taken into binary64 rounds. -/
def Decimal.RoundsOnce (number : Decimal) : Prop :=
  number.digits = 0 ∨ number.exponent = 0 ∨
    (∃ y : Binary64, y.isFinite ∧ y.toRat = number.digits) ∧ number.exponent.natAbs ≤ 22

namespace Binary64

theorem IsNearest.toRat_withSign {x y : Binary64} {negative : Bool} {q : ℚ} (h : x.IsNearest (withSign negative q))
    (hy : y.isFinite) (hq : y.toRat = q) : x.toRat = withSign negative q := by
  cases negative with
  | false => exact h.toRat_eq hy hq
  | true =>
    obtain ⟨z, hz, hvalue⟩ := exists_toRat_neg hy
    exact h.toRat_eq hz (hvalue.trans (congrArg _ hq))

theorem withSign_mul_right (negative : Bool) (p q : ℚ) : withSign negative (p * q) = withSign negative p * q := by
  cases negative <;> simp [withSign]

/-- If only one step rounds, the outcome is the number nearest to the decimal number. -/
theorem IsScaled.isNearest {negative : Bool} {number : Decimal} {x : Binary64} (h : IsScaled negative number x)
    (honce : number.RoundsOnce) : x.IsNearest (withSign negative (number.digits * 10 ^ number.exponent)) := by
  cases h with
  | zero hzero hx =>
    have hself := isNearest_self (isFinite_zero negative)
    rw [toRat_zero] at hself
    rw [hx, hzero, Nat.cast_zero, zero_mul]
    cases negative
    · exact hself
    · rwa [withSign, if_pos rfl, neg_zero]
  | alone hexponent hx => rwa [hexponent, zpow_zero, mul_one]
  | @product digits power n hne hexponent hpos hd hp hx =>
    obtain hzero | hzero | ⟨⟨y, hy, hdigits⟩, hsmall⟩ := honce
    · exact absurd hzero hne
    · omega
    obtain ⟨z, hz, hpower⟩ := exists_toRat_eq_pow_ten (n := n) (by omega)
    rwa [hd.toRat_withSign hy hdigits, hp.toRat_eq hz hpower, ← zpow_natCast, ← hexponent,
      ← withSign_mul_right] at hx
  | @quotient digits n hne hexponent hpos hd hx =>
    obtain hzero | hzero | ⟨⟨y, hy, hdigits⟩, hsmall⟩ := honce
    · exact absurd hzero hne
    · omega
    obtain ⟨z, hz, hpower⟩ := exists_toRat_eq_pow_ten (n := n) (by omega)
    cases hx with
    | last hn hp hx =>
      rwa [hd.toRat_withSign hy hdigits, hp.toRat_eq hz hpower, ← zpow_natCast, div_eq_mul_inv, ← zpow_neg,
        ← hexponent, ← withSign_mul_right] at hx
    | step => omega

end Binary64

/-! ### Written numbers -/

namespace Json

/-- Appending digits makes no number smaller. -/
theorem le_ofDigitChars (cs : List Char) (n : Nat) : n ≤ Nat.ofDigitChars 10 cs n := by
  induction cs generalizing n with
  | nil => exact Nat.le_refl n
  | cons c cs ih =>
    rw [Nat.ofDigitChars_cons]
    have := ih (10 * n + (c.toNat - '0'.toNat))
    omega

theorem appendDigits_of_lt {cs : List Char} {n : Nat} (h : Nat.ofDigitChars 10 cs n < UInt64.size) :
    appendDigits n cs = (Nat.ofDigitChars 10 cs n, []) := by
  induction cs generalizing n with
  | nil => rfl
  | cons c cs ih =>
    have hsplit : Nat.ofDigitChars 10 (c :: cs) n = Nat.ofDigitChars 10 cs (Nat.ofDigitChars 10 [c] n) :=
      Nat.ofDigitChars_append (l := [c]) n
    rw [hsplit] at h ⊢
    rw [appendDigits, if_pos (Nat.lt_of_le_of_lt (le_ofDigitChars cs _) h), ih h]

theorem appendDigits_lt {cs : List Char} {n : Nat} (h : n < UInt64.size) : (appendDigits n cs).1 < UInt64.size := by
  induction cs generalizing n with
  | nil => exact h
  | cons c cs ih =>
    rw [appendDigits]
    split
    · exact ih ‹_›
    · exact h

namespace Numeral

/-- All digits as one number. -/
def digits (numeral : Numeral) : Nat :=
  Nat.ofDigitChars 10 (numeral.whole ++ numeral.fraction.getD []) 0

/-- The power of ten that the digits are multiplied with. -/
def power (numeral : Numeral) : Int :=
  numeral.exponent.getD 0 - (numeral.fraction.getD []).length

/-- The number that is written. -/
def value (numeral : Numeral) : ℚ :=
  Binary64.withSign numeral.negative (numeral.digits * 10 ^ numeral.power)

theorem leading_of_digits_lt {numeral : Numeral} (h : numeral.digits < UInt64.size) :
    numeral.leading = { digits := numeral.digits, exponent := numeral.power } := by
  unfold digits at h ⊢
  rw [Nat.ofDigitChars_append] at h ⊢
  have hwhole := Nat.lt_of_le_of_lt (le_ofDigitChars _ _) h
  simp [leading, appendDigits_of_lt hwhole, appendDigits_of_lt h, power]

theorem leading_digits_lt (numeral : Numeral) : numeral.leading.digits < UInt64.size :=
  appendDigits_lt (appendDigits_lt (by decide))

/-- What a numeral becomes that is not kept as an integer. Beyond 64 bits of digits, the steps are those of its
leading digits. -/
structure IsRounded (numeral : Numeral) (x : Binary64) : Prop where
  isNegative : x.isNegative = numeral.negative
  isScaled : Binary64.IsScaled numeral.negative numeral.leading x
  isNearest : numeral.digits < 2 ^ 64 → Decimal.RoundsOnce ⟨numeral.digits, numeral.power⟩ →
    x.IsNearest numeral.value

theorem isRounded_of_toBinary64? {numeral : Numeral} {x : Binary64} (h : numeral.toBinary64? = some x) :
    numeral.IsRounded x := by
  have hscaled := Binary64.isScaled_of_ofDecimal? numeral.leading_digits_lt h
  refine ⟨Binary64.isNegative_of_ofDecimal? h, hscaled, fun hdigits honce => ?_⟩
  rw [leading_of_digits_lt hdigits] at hscaled
  exact hscaled.isNearest honce

end Numeral

end Json

end ResourceGraph
