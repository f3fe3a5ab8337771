import Descriptor.Proofs.Number.Integer
import Descriptor.Proofs.Number.Shortest

/-!
# The nearest magnitude

What rounding to nearest means: `IsNearest` compares a rational with all magnitudes, infinity being
as far as the next magnitude after the greatest finite one would be.  Every rational has at most
one nearest magnitude, `IsNearest.unique`, and `Decimal.nearestPattern` gives the one of a decimal,
`Decimal.isNearest_nearestPattern`.

A quotient of units lies between two neighbouring magnitudes.  Both are multiples of the distance
between them, which the quotient is rounded to, and no other magnitude is as near as both of them.
-/

namespace Descriptor

namespace Binary64

/-! ## Magnitudes in order -/

/-- From one doubling to the next the patterns count multiples of the distance. -/
theorem units_add {doublings multiple : Nat}
    (low : doublings = 0 ∨ patternsPerStep ≤ multiple) (high : multiple ≤ 2 * patternsPerStep) :
    units (doublings * patternsPerStep + multiple) = multiple * 2 ^ doublings := by
  have positive := patternsPerStep_pos
  rcases Nat.lt_or_ge multiple patternsPerStep with small | large
  · obtain rfl := low.resolve_right (Nat.not_le.mpr small)
    rw [Nat.zero_mul, Nat.zero_add, units, if_pos small, Nat.pow_zero, Nat.mul_one]
  · rw [units, if_neg (by omega), Nat.pow_eq]
    rcases Nat.lt_or_eq_of_le high with less | rfl
    · have rest : multiple - patternsPerStep < patternsPerStep := by omega
      have whole : doublings * patternsPerStep + multiple =
          (multiple - patternsPerStep) + (doublings + 1) * patternsPerStep := by
        rw [Nat.succ_mul]
        omega
      rw [whole, Nat.add_mul_mod_self_right, Nat.mod_eq_of_lt rest,
        Nat.add_mul_div_right _ _ positive, Nat.div_eq_of_lt rest, Nat.add_sub_cancel' large,
        Nat.zero_add, Nat.add_sub_cancel]
    · have whole : doublings * patternsPerStep + 2 * patternsPerStep =
          (doublings + 2) * patternsPerStep := (Nat.add_mul ..).symm
      rw [whole, Nat.mul_mod_left, Nat.mul_div_cancel _ positive, Nat.add_zero,
        Nat.add_sub_assoc (by decide), Nat.pow_succ']
      ring

/-- Every pattern is so many multiples behind a doubling. -/
theorem exists_doublings (pattern : Nat) :
    ∃ doublings multiple, pattern = doublings * patternsPerStep + multiple ∧
      (doublings = 0 ∨ patternsPerStep ≤ multiple) ∧ multiple < 2 * patternsPerStep := by
  have positive := patternsPerStep_pos
  rcases Nat.lt_or_ge pattern patternsPerStep with small | large
  · exact ⟨0, pattern, by omega, .inl rfl, by omega⟩
  · have steps : 0 < pattern / patternsPerStep := Nat.div_pos large positive
    have whole := Nat.div_add_mod' pattern patternsPerStep
    have rest := Nat.mod_lt pattern positive
    have split : (pattern / patternsPerStep - 1) * patternsPerStep + patternsPerStep =
        pattern / patternsPerStep * patternsPerStep := by
      rw [← Nat.succ_mul, Nat.succ_eq_add_one, Nat.sub_add_cancel steps]
    exact ⟨pattern / patternsPerStep - 1, patternsPerStep + pattern % patternsPerStep, by omega,
      .inr (Nat.le_add_right _ _), by omega⟩

theorem units_strictMono : StrictMono units := by
  refine strictMono_nat_of_lt_succ fun pattern => ?_
  rcases exists_doublings pattern with ⟨doublings, multiple, rfl, low, high⟩
  rw [units_add low high.le, Nat.add_assoc, units_add (by omega) (by omega)]
  exact Nat.mul_lt_mul_of_pos_right (Nat.lt_succ_self multiple) (Nat.two_pow_pos _)

/-- The magnitude with the given pattern. -/
def magnitude (pattern : Nat) : ℚ :=
  units pattern / unitsPerOne

theorem unitsPerOne_cast_pos : (0 : ℚ) < unitsPerOne :=
  Nat.cast_pos.mpr unitsPerOne_pos

theorem magnitude_strictMono : StrictMono magnitude := fun _ _ less =>
  div_lt_div_of_pos_right (by exact_mod_cast units_strictMono less) unitsPerOne_cast_pos

theorem magnitude_zero : magnitude 0 = 0 := by
  have none : units 0 = 0 := rfl
  rw [magnitude, none, Nat.cast_zero, zero_div]

/-- Infinity stands where the next magnitude after the greatest finite one would. -/
theorem magnitude_infinity : magnitude infinityPattern = 2 ^ 1024 := by
  have isUnits : units infinityPattern = 2 ^ 1024 * unitsPerOne := by decide +kernel
  rw [magnitude, isUnits, Nat.cast_mul, mul_div_cancel_right₀ _ unitsPerOne_cast_pos.ne',
    Nat.cast_pow, Nat.cast_ofNat]

/-! ## What nearest means -/

/-- No magnitude is nearer to a rational than the one with the given pattern, and none as near
unless the pattern is even. -/
def IsNearest (value : ℚ) (pattern : Nat) : Prop :=
  pattern ≤ infinityPattern ∧ ∀ other ≤ infinityPattern, other ≠ pattern →
    |value - magnitude pattern| < |value - magnitude other| ∨
      |value - magnitude pattern| = |value - magnitude other| ∧ pattern % 2 = 0

/-- A magnitude between two others is nearer than the farther one of them. -/
theorem abs_sub_lt_max (value : ℚ) {low middle high : ℚ} (above : low < middle)
    (below : middle < high) :
    |value - middle| < max |value - low| |value - high| := by
  rcases le_total value middle with le | ge
  · refine lt_max_of_lt_right ?_
    rw [abs_of_nonpos (by linarith), abs_of_nonpos (by linarith)]
    linarith
  · refine lt_max_of_lt_left ?_
    rw [abs_of_nonneg (by linarith), abs_of_nonneg (by linarith)]
    linarith

/-- A rational has one nearest magnitude. -/
theorem IsNearest.unique {value : ℚ} {first second : Nat} (isFirst : IsNearest value first)
    (isSecond : IsNearest value second) : first = second := by
  wlog less : first < second generalizing first second
  · rcases Nat.lt_or_eq_of_le (Nat.le_of_not_lt less) with greater | same
    · exact (this isSecond isFirst greater).symm
    · exact same.symm
  exfalso
  have tie : |value - magnitude first| = |value - magnitude second| ∧ first % 2 = 0 ∧
      second % 2 = 0 := by
    rcases isFirst.2 second isSecond.1 less.ne' with nearer | ⟨same, firstEven⟩
    · rcases isSecond.2 first isFirst.1 less.ne with other | ⟨same, -⟩
      · exact absurd nearer (lt_asymm other)
      · exact absurd same nearer.ne'
    · rcases isSecond.2 first isFirst.1 less.ne with other | ⟨-, secondEven⟩
      · exact absurd same other.ne'
      · exact ⟨same, firstEven, secondEven⟩
  -- Between two even patterns there is an odd one, whose magnitude is nearer than both.
  have between : first + 1 < second := by omega
  have nearer := abs_sub_lt_max value (magnitude_strictMono (Nat.lt_succ_self first))
    (magnitude_strictMono between)
  rw [← tie.1, max_self] at nearer
  rcases isFirst.2 (first + 1) (between.le.trans isSecond.1) (Nat.succ_ne_self first) with
    other | ⟨same, -⟩
  · exact lt_asymm nearer other
  · exact nearer.ne' same

/-! ## Rounding to the nearest -/

/-- Beyond the magnitude of infinity, infinity is nearest. -/
theorem isNearest_infinity {value : ℚ} (le : magnitude infinityPattern ≤ value) :
    IsNearest value infinityPattern := by
  refine ⟨le_rfl, fun other bound distinct => .inl ?_⟩
  have less := magnitude_strictMono (lt_of_le_of_ne bound distinct)
  rw [abs_of_nonneg (by linarith), abs_of_nonneg (by linarith)]
  linarith

/-- Below half the least magnitude, zero is nearest. -/
theorem isNearest_zero {value : ℚ} (nonneg : 0 ≤ value) (less : 2 * value < magnitude 1) :
    IsNearest value 0 := by
  refine ⟨Nat.zero_le _, fun other _ distinct => .inl ?_⟩
  have le := magnitude_strictMono.monotone (Nat.one_le_iff_ne_zero.mpr distinct)
  rw [magnitude_zero, abs_of_nonneg (by linarith), abs_of_nonpos (by linarith)]
  linarith

section Between

variable {value : ℚ} {pattern : Nat} (low : magnitude pattern ≤ value)
  (high : value ≤ magnitude (pattern + 1))
include low high

/-- Of two neighbours the lower one is nearest if the value is not nearer to the upper one, and the
pattern even if it is as near. -/
theorem isNearest_of_lower (bound : pattern ≤ infinityPattern)
    (near : value - magnitude pattern ≤ magnitude (pattern + 1) - value)
    (tie : value - magnitude pattern = magnitude (pattern + 1) - value → pattern % 2 = 0) :
    IsNearest value pattern := by
  refine ⟨bound, fun other _ distinct => ?_⟩
  rw [abs_of_nonneg (sub_nonneg.mpr low)]
  rcases Nat.lt_or_gt_of_ne distinct with less | greater
  · have below := magnitude_strictMono less
    rw [abs_of_nonneg (by linarith)]
    exact .inl (by linarith)
  · have above := magnitude_strictMono.monotone (Nat.succ_le_of_lt greater)
    rw [Nat.succ_eq_add_one] at above
    rw [abs_of_nonpos (by linarith), neg_sub]
    rcases lt_or_eq_of_le near with nearer | same
    · exact .inl (by linarith)
    · rcases lt_or_eq_of_le above with farther | next
      · exact .inl (by linarith)
      · exact .inr ⟨by linarith, tie same⟩

/-- The upper one is nearest if the value is not nearer to the lower one, and the pattern even if
it is as near. -/
theorem isNearest_of_upper (bound : pattern + 1 ≤ infinityPattern)
    (near : magnitude (pattern + 1) - value ≤ value - magnitude pattern)
    (tie : magnitude (pattern + 1) - value = value - magnitude pattern →
      (pattern + 1) % 2 = 0) : IsNearest value (pattern + 1) := by
  refine ⟨bound, fun other _ distinct => ?_⟩
  rw [abs_of_nonpos (sub_nonpos.mpr high), neg_sub]
  rcases Nat.lt_or_gt_of_ne distinct with less | greater
  · have below := magnitude_strictMono.monotone (Nat.le_of_lt_succ less)
    rw [abs_of_nonneg (by linarith)]
    rcases lt_or_eq_of_le near with nearer | same
    · exact .inl (by linarith)
    · rcases lt_or_eq_of_le below with farther | next
      · exact .inl (by linarith)
      · exact .inr ⟨by linarith, tie same⟩
  · have above := magnitude_strictMono greater
    rw [abs_of_nonpos (by linarith), neg_sub]
    exact .inl (by linarith)

end Between

/-- The distances of a quotient from the two multiples that it lies between. -/
theorem sub_magnitude_eq (numerator : Nat) {denominator : Nat} (positive : 0 < denominator) :
    let doublings := doublings numerator denominator
    let step := denominator * 2 ^ doublings
    let lower := doublings * patternsPerStep + numerator / step
    let value : ℚ := numerator / (denominator * unitsPerOne)
    value - magnitude lower = (numerator % step : Nat) / (denominator * unitsPerOne) ∧
      magnitude (lower + 1) - value =
        ((step : ℚ) - (numerator % step : Nat)) / (denominator * unitsPerOne) := by
  intro doublings step lower value
  have low : doublings = 0 ∨ patternsPerStep ≤ numerator / step :=
    (Nat.eq_zero_or_pos doublings).imp id le_div_of_doublings
  have high : numerator / step < 2 * patternsPerStep := div_lt_of_doublings numerator denominator
  have units := unitsPerOne_cast_pos.ne'
  have nonzero : (denominator : ℚ) ≠ 0 := Nat.cast_ne_zero.mpr positive.ne'
  have whole : (numerator : ℚ) = step * (numerator / step : Nat) + (numerator % step : Nat) := by
    exact_mod_cast (Nat.div_add_mod numerator step).symm
  have isStep : (step : ℚ) = denominator * 2 ^ doublings := by
    simp only [step, Nat.cast_mul, Nat.cast_pow, Nat.cast_ofNat]
  constructor
  · rw [magnitude, units_add low high.le, Nat.cast_mul, Nat.cast_pow, Nat.cast_ofNat]
    simp only [value]
    rw [whole, isStep]
    field_simp
    ring
  · rw [magnitude, Nat.add_assoc, units_add (by omega) (by omega), Nat.cast_mul, Nat.cast_pow,
      Nat.cast_ofNat, Nat.cast_succ]
    simp only [value]
    rw [whole, isStep]
    field_simp
    ring

/-- Between two neighbours the nearer one is nearest, and the even one half-way between them, but
infinity where both lie beyond it. -/
theorem isNearest_of_distances {value scale : ℚ} {lower rest step : Nat} (positive : 0 < scale)
    (less : rest < step) (fromLower : value - magnitude lower = rest / scale)
    (fromUpper : magnitude (lower + 1) - value = (step - rest) / scale) :
    IsNearest value (min
      (if step < 2 * rest ∨ step = 2 * rest ∧ lower % 2 = 1 then lower + 1 else lower)
      infinityPattern) := by
  have less' : (rest : ℚ) < step := by exact_mod_cast less
  have low : magnitude lower ≤ value := by
    rw [← sub_nonneg, fromLower]
    positivity
  have high : value ≤ magnitude (lower + 1) := by
    rw [← sub_nonneg, fromUpper]
    exact div_nonneg (by linarith) positive.le
  have lower_le_iff : value - magnitude lower ≤ magnitude (lower + 1) - value ↔
      2 * rest ≤ step := by
    rw [fromLower, fromUpper, div_le_div_iff_of_pos_right positive, le_sub_iff_add_le, ← two_mul]
    exact_mod_cast Iff.rfl
  have upper_le_iff : magnitude (lower + 1) - value ≤ value - magnitude lower ↔
      step ≤ 2 * rest := by
    rw [fromLower, fromUpper, div_le_div_iff_of_pos_right positive, sub_le_iff_le_add, ← two_mul]
    exact_mod_cast Iff.rfl
  have beyond : infinityPattern ≤ lower → IsNearest value infinityPattern := fun le =>
    isNearest_infinity ((magnitude_strictMono.monotone le).trans low)
  split
  · rename_i up
    rcases Nat.lt_or_ge lower infinityPattern with bound | le
    · rw [Nat.min_eq_left bound]
      refine isNearest_of_upper low high bound (upper_le_iff.mpr (by omega)) fun same => ?_
      have := lower_le_iff.mp same.ge
      omega
    · rw [Nat.min_eq_right (by omega)]
      exact beyond le
  · rename_i down
    rcases Nat.le_total lower infinityPattern with bound | le
    · rw [Nat.min_eq_left bound]
      refine isNearest_of_lower low high bound (lower_le_iff.mpr (by omega)) fun same => ?_
      have := upper_le_iff.mp same.ge
      omega
    · rw [Nat.min_eq_right le]
      exact beyond le

/-- The nearest pattern of a quotient of units stands for the nearest magnitude. -/
theorem isNearest_nearestPattern (numerator : Nat) {denominator : Nat}
    (positive : 0 < denominator) :
    IsNearest (numerator / (denominator * unitsPerOne)) (nearestPattern numerator denominator) := by
  rcases sub_magnitude_eq numerator positive with ⟨fromLower, fromUpper⟩
  have stepPositive : 0 < denominator * 2 ^ doublings numerator denominator :=
    Nat.mul_pos positive (Nat.two_pow_pos _)
  have nearest := isNearest_of_distances
    (mul_pos (Nat.cast_pos.mpr positive) unitsPerOne_cast_pos) (Nat.mod_lt numerator stepPositive)
    fromLower fromUpper
  have parity : ∀ multiple, (doublings numerator denominator * patternsPerStep + multiple) % 2 =
      multiple % 2 := by
    have even : patternsPerStep = 2 * 2 ^ 51 := rfl
    intro multiple
    rw [even]
    omega
  have behind : ∀ (up : Prop) [Decidable up] (doubled below : Nat),
      (if up then doubled + below + 1 else doubled + below) =
        doubled + if up then below + 1 else below := by
    intro up _ doubled below
    split <;> rfl
  rw [parity, behind] at nearest
  rwa [nearestPattern_eq, halfEven]

end Binary64

/-! ## The nearest magnitude of a decimal -/

namespace Decimal

open Binary64

/-- The rational that a decimal is. -/
def value (d : Decimal) : ℚ :=
  d.digits * 10 ^ d.exponent

theorem value_nonneg (d : Decimal) : 0 ≤ d.value := by
  unfold value
  positivity

/-- A decimal lies below the power of ten that its point says. -/
theorem value_lt (d : Decimal) : d.value < 10 ^ d.point := by
  have bound : (d.digits : ℚ) < 10 ^ digitCount d.digits := by
    exact_mod_cast lt_pow_digitCount d.digits
  rw [value, point, zpow_add₀ (by norm_num), zpow_natCast]
  exact mul_lt_mul_of_pos_right bound (by positivity)

theorem le_value {d : Decimal} (nonzero : d.digits ≠ 0) : 10 ^ (d.point - 1) ≤ d.value := by
  have bound : (10 : ℚ) ^ (digitCount d.digits - 1) ≤ d.digits := by
    exact_mod_cast pow_digitCount_le nonzero
  have count := digitCount_pos d.digits
  have split : d.point - 1 = ((digitCount d.digits - 1 : Nat) : Int) + d.exponent := by
    rw [point]
    omega
  rw [value, split, zpow_add₀ (by norm_num), zpow_natCast]
  exact mul_le_mul_of_nonneg_right bound (by positivity)

/-- The quotient of a decimal counts its units. -/
theorem value_eq (d : Decimal) : d.value = d.quotient.1 / (d.quotient.2 * unitsPerOne) := by
  have units := unitsPerOne_cast_pos.ne'
  unfold value quotient
  split
  · rename_i negative
    have exponent : d.exponent = -((-d.exponent).toNat : Int) := by omega
    rw [exponent, zpow_neg, zpow_natCast]
    simp only [Int.neg_neg, Int.toNat_natCast, Nat.cast_mul, Nat.cast_pow, Nat.cast_ofNat]
    field_simp
  · rename_i nonneg
    have exponent : d.exponent = (d.exponent.toNat : Int) := by omega
    rw [exponent, zpow_natCast]
    simp only [Int.toNat_natCast, Nat.cast_mul, Nat.cast_pow, Nat.cast_ofNat, Nat.cast_one]
    field_simp

theorem quotient_pos (d : Decimal) : 0 < d.quotient.2 := by
  unfold quotient
  split <;> positivity

/-- Decimals far below the least magnitude are nearest to zero. -/
theorem isNearest_of_small {d : Decimal} (small : d.digits = 0 ∨ d.point < pointFloor) :
    IsNearest d.value 0 := by
  have least : magnitude 1 = (unitsPerOne : ℚ)⁻¹ := by
    have one : units 1 = 1 := rfl
    rw [magnitude, one, Nat.cast_one, one_div]
  refine isNearest_zero d.value_nonneg ?_
  rw [least]
  rcases small with zero | small
  · rw [value, zero, Nat.cast_zero, zero_mul, mul_zero]
    exact inv_pos.mpr unitsPerOne_cast_pos
  · have double : 2 * unitsPerOne < 10 ^ 331 := by decide +kernel
    have bound : (10 : ℚ) ^ d.point ≤ (10 ^ 331)⁻¹ := by
      rw [← zpow_natCast, ← zpow_neg]
      refine zpow_le_zpow_right₀ (by norm_num) ?_
      unfold pointFloor at small
      omega
    calc 2 * d.value
        < 2 * (10 ^ 331)⁻¹ := mul_lt_mul_of_pos_left (d.value_lt.trans_le bound) two_pos
      _ < 2 * ((2 * unitsPerOne : Nat) : ℚ)⁻¹ := by
          have positive : (0 : ℚ) < (2 * unitsPerOne : Nat) :=
            Nat.cast_pos.mpr (Nat.mul_pos two_pos unitsPerOne_pos)
          refine mul_lt_mul_of_pos_left (inv_strictAnti₀ positive ?_) two_pos
          exact_mod_cast double
      _ = (unitsPerOne : ℚ)⁻¹ := by
          rw [Nat.cast_mul, Nat.cast_ofNat, mul_inv, mul_inv_cancel_left₀ two_ne_zero]

/-- Decimals far beyond the greatest magnitude are nearest to infinity. -/
theorem isNearest_of_large {d : Decimal} (nonzero : d.digits ≠ 0) (large : pointLimit < d.point) :
    IsNearest d.value infinityPattern := by
  refine isNearest_infinity ?_
  have bound : 2 ^ 1024 ≤ 10 ^ 310 := by decide +kernel
  rw [magnitude_infinity]
  calc (2 : ℚ) ^ 1024
      ≤ 10 ^ 310 := by exact_mod_cast bound
    _ = 10 ^ (310 : Int) := (zpow_natCast ..).symm
    _ ≤ 10 ^ (d.point - 1) := by
        refine zpow_le_zpow_right₀ (by norm_num) ?_
        unfold pointLimit at large
        omega
    _ ≤ d.value := le_value nonzero

/-- The nearest pattern of a decimal stands for the nearest magnitude. -/
theorem isNearest_nearestPattern (d : Decimal) : IsNearest d.value d.nearestPattern := by
  rw [nearestPattern_eq]
  split
  · rename_i small
    exact isNearest_of_small small
  · rename_i notSmall
    split
    · rename_i large
      exact isNearest_of_large (not_or.mp notSmall).1 large
    · rw [value_eq]
      exact Binary64.isNearest_nearestPattern _ d.quotient_pos

end Decimal

end Descriptor
