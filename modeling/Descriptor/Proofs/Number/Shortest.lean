import Descriptor.Number.Numeral
import Descriptor.Proofs.Number.Rounding

/-!
# The shortest decimal of a magnitude

Zeros behind the digits of a decimal do not change its nearest pattern, `nearestPattern_extend`, and
a greater decimal has no lesser one, `nearestPattern_mono`.  The shortest decimal of a pattern has
that pattern, `nearestPattern_shortest`.  It is written without an exponent if the magnitude lies
between `10 ^ -6` and `10 ^ 21`, `isPositional_shortest`.
-/

namespace Descriptor.Decimal

open Binary64

/-! ## Counting digits -/

theorem digitCount_eq (n : Nat) : digitCount n = Nat.log 10 n + 1 := by
  induction n using digitCount.induct with
  | case1 n small =>
      rw [digitCount, if_pos small, Nat.log_of_lt small]
  | case2 n large ih =>
      rw [digitCount, if_neg large, ih, Nat.log_div_base]
      have := Nat.log_pos (b := 10) (by decide) (Nat.le_of_not_lt large)
      omega

theorem lt_pow_digitCount (n : Nat) : n < 10 ^ digitCount n := by
  rw [digitCount_eq]
  exact Nat.lt_pow_succ_log_self (by decide) n

theorem pow_digitCount_le {n : Nat} (nonzero : n ≠ 0) : 10 ^ (digitCount n - 1) ≤ n := by
  rw [digitCount_eq, Nat.add_sub_cancel]
  exact Nat.pow_log_le_self 10 nonzero

theorem digitCount_pos (n : Nat) : 0 < digitCount n := by
  rw [digitCount_eq]
  exact Nat.succ_pos _

theorem digitCount_mono {a b : Nat} (le : a ≤ b) : digitCount a ≤ digitCount b := by
  rw [digitCount_eq, digitCount_eq]
  exact Nat.succ_le_succ (Nat.log_mono_right le)

theorem digitCount_mul_pow {n : Nat} (nonzero : n ≠ 0) (zeros : Nat) :
    digitCount (n * 10 ^ zeros) = digitCount n + zeros := by
  induction zeros with
  | zero => simp
  | succ zeros ih =>
      rw [Nat.pow_succ, ← Nat.mul_assoc, digitCount_eq, Nat.log_mul_base (by decide)
        (Nat.mul_ne_zero nonzero (by positivity)), ← digitCount_eq, ih, Nat.add_assoc]

/-! ## The nearest pattern of a decimal -/

/-- The same decimal with more zeros behind its digits. -/
def extend (d : Decimal) (zeros : Nat) : Decimal :=
  ⟨d.digits * 10 ^ zeros, d.exponent - zeros⟩

theorem point_extend {d : Decimal} (nonzero : d.digits ≠ 0) (zeros : Nat) :
    (d.extend zeros).point = d.point := by
  simp only [point, extend, digitCount_mul_pow nonzero]
  omega

/-- The quotient of units that a decimal stands for has this numerator and this denominator. -/
def quotient (d : Decimal) : Nat × Nat :=
  if d.exponent < 0 then (d.digits * unitsPerOne, 10 ^ (-d.exponent).toNat)
  else (d.digits * unitsPerOne * 10 ^ d.exponent.toNat, 1)

theorem nearestPattern_eq (d : Decimal) :
    d.nearestPattern =
      if d.digits = 0 ∨ d.point < pointFloor then 0
      else if pointLimit < d.point then infinityPattern
      else Binary64.nearestPattern d.quotient.1 d.quotient.2 := by
  simp only [nearestPattern, quotient, Nat.pow_eq, Bool.or_eq_true, beq_iff_eq,
    decide_eq_true_eq]
  split
  · rfl
  · split
    · rfl
    · split <;> rfl

/-- Zeros behind the digits leave the quotient as it is.  They multiply both its parts, or take the
place of tens of the exponent, or do both where the exponent becomes negative. -/
theorem nearestPattern_quotient_extend (d : Decimal) (zeros : Nat) :
    Binary64.nearestPattern (d.extend zeros).quotient.1 (d.extend zeros).quotient.2 =
      Binary64.nearestPattern d.quotient.1 d.quotient.2 := by
  unfold quotient extend
  by_cases negative : d.exponent < 0
  · have exponents : (-(d.exponent - zeros)).toNat = (-d.exponent).toNat + zeros := by omega
    rw [if_pos (show d.exponent - zeros < 0 by omega), if_pos negative]
    simp only [exponents, Nat.pow_add, Nat.mul_right_comm _ (10 ^ zeros)]
    exact nearestPattern_mul _ _ (by positivity)
  · rw [if_neg negative]
    by_cases crosses : d.exponent - zeros < 0
    · have exponents : 10 ^ zeros =
          10 ^ d.exponent.toNat * 10 ^ (-(d.exponent - zeros)).toNat := by
        rw [← Nat.pow_add]
        congr 1
        omega
      rw [if_pos crosses]
      simp only
      rw [exponents, ← Nat.mul_assoc, Nat.mul_right_comm _ _ unitsPerOne,
        Nat.mul_right_comm _ _ unitsPerOne]
      have positive : 0 < 10 ^ (-(d.exponent - zeros)).toNat := by positivity
      have scaled :=
        nearestPattern_mul (d.digits * unitsPerOne * 10 ^ d.exponent.toNat) 1 positive
      rwa [Nat.one_mul] at scaled
    · have exponents : 10 ^ d.exponent.toNat =
          10 ^ zeros * 10 ^ (d.exponent - zeros).toNat := by
        rw [← Nat.pow_add]
        congr 1
        omega
      rw [if_neg crosses]
      simp only
      rw [exponents, ← Nat.mul_assoc, Nat.mul_right_comm _ _ unitsPerOne]

/-- Zeros behind the digits do not change the nearest pattern. -/
theorem nearestPattern_extend (d : Decimal) (zeros : Nat) :
    (d.extend zeros).nearestPattern = d.nearestPattern := by
  by_cases zero : d.digits = 0
  · simp [nearestPattern_eq, extend, zero]
  · rw [nearestPattern_eq, nearestPattern_eq, point_extend zero, nearestPattern_quotient_extend]
    simp [extend, zero]

theorem nearestPattern_le_infinity (d : Decimal) : d.nearestPattern ≤ infinityPattern := by
  rw [nearestPattern_eq]
  split
  · exact Nat.zero_le _
  · split
    · exact le_rfl
    · exact nearestPattern_le _ _

/-- Of decimals with the same exponent the one with more digits has no lesser pattern. -/
theorem nearestPattern_mono {a b : Nat} (exponent : Int) (le : a ≤ b) :
    (⟨a, exponent⟩ : Decimal).nearestPattern ≤ (⟨b, exponent⟩ : Decimal).nearestPattern := by
  have points : (⟨a, exponent⟩ : Decimal).point ≤ (⟨b, exponent⟩ : Decimal).point := by
    have := digitCount_mono le
    simp only [point]
    omega
  by_cases aSmall : a = 0 ∨ (⟨a, exponent⟩ : Decimal).point < pointFloor
  · rw [nearestPattern_eq, if_pos aSmall]
    exact Nat.zero_le _
  · have bLarge : ¬(b = 0 ∨ (⟨b, exponent⟩ : Decimal).point < pointFloor) := by omega
    by_cases beyond : pointLimit < (⟨b, exponent⟩ : Decimal).point
    · rw [nearestPattern_eq ⟨b, exponent⟩, if_neg bLarge, if_pos beyond]
      exact nearestPattern_le_infinity _
    · rw [nearestPattern_eq, nearestPattern_eq, if_neg aSmall, if_neg bLarge, if_neg beyond,
        if_neg (by omega)]
      unfold quotient
      split
      · exact nearestPattern_mono_left _ (Nat.mul_le_mul_right _ le)
      · exact nearestPattern_mono_left _
          (Nat.mul_le_mul_right _ (Nat.mul_le_mul_right _ le))

/-- A decimal whose point is no further than that of a power of ten lies below it. -/
theorem nearestPattern_le_of_point_le {d : Decimal} {exponent : Int} (le : d.point ≤ exponent) :
    d.nearestPattern ≤ (⟨1, exponent⟩ : Decimal).nearestPattern := by
  unfold point at le
  have count := digitCount_pos d.digits
  have zeros : ((exponent - d.exponent).toNat : Int) = exponent - d.exponent := by omega
  rw [← nearestPattern_extend ⟨1, exponent⟩ (exponent - d.exponent).toNat]
  have extended : (⟨1, exponent⟩ : Decimal).extend (exponent - d.exponent).toNat =
      ⟨10 ^ (exponent - d.exponent).toNat, d.exponent⟩ := by
    simp only [extend, Nat.one_mul, zeros, Decimal.mk.injEq, true_and]
    omega
  rw [extended]
  refine nearestPattern_mono d.exponent ((lt_pow_digitCount d.digits).le.trans ?_)
  exact Nat.pow_le_pow_right (by decide) (by omega)

/-- A decimal whose point is beyond that of a power of ten does not lie below it. -/
theorem le_nearestPattern_of_lt_point {d : Decimal} (nonzero : d.digits ≠ 0) {exponent : Int}
    (lt : exponent < d.point) :
    (⟨1, exponent⟩ : Decimal).nearestPattern ≤ d.nearestPattern := by
  rcases d with ⟨digits, places⟩
  unfold point at lt
  simp only at lt nonzero
  rcases le_or_gt places exponent with le | gt
  · rw [← nearestPattern_extend ⟨1, exponent⟩ (exponent - places).toNat]
    have extended : (⟨1, exponent⟩ : Decimal).extend (exponent - places).toNat =
        ⟨10 ^ (exponent - places).toNat, places⟩ := by
      simp only [extend, Nat.one_mul, Decimal.mk.injEq, true_and]
      omega
    rw [extended]
    refine nearestPattern_mono places (le_trans ?_ (pow_digitCount_le nonzero))
    exact Nat.pow_le_pow_right (by decide) (by omega)
  · rw [← nearestPattern_extend ⟨digits, places⟩ (places - exponent).toNat]
    have extended : (⟨digits, places⟩ : Decimal).extend (places - exponent).toNat =
        ⟨digits * 10 ^ (places - exponent).toNat, exponent⟩ := by
      simp only [extend, Decimal.mk.injEq, true_and]
      omega
    rw [extended]
    exact nearestPattern_mono exponent (Nat.mul_pos (by omega) (by positivity))

/-! ## The shortest decimal -/

/-- Units in tenths of tenths. -/
theorem nearestPattern_tenths {d : Decimal} {n scale exponent : Nat} (positive : 0 < exponent)
    (isTens : scale * unitsPerOne = 10 ^ exponent) (isDigits : d.digits = n * scale)
    (isPlace : d.exponent = -exponent) :
    Binary64.nearestPattern d.quotient.1 d.quotient.2 = Binary64.nearestPattern n 1 := by
  have isQuotient : d.quotient = (n * scale * unitsPerOne, 10 ^ exponent) := by
    rw [quotient, if_pos (by omega), isDigits, isPlace, Int.neg_neg, Int.toNat_natCast]
  have scaled := nearestPattern_mul n 1 (Nat.pow_pos (by decide) : 0 < 10 ^ exponent)
  rw [isQuotient, Nat.mul_assoc, isTens]
  rwa [Nat.one_mul] at scaled

/-- No exact value of a magnitude is so small or so great that it would not be computed with. -/
theorem point_exact {pattern : Nat} (nonzero : pattern ≠ 0) (finite : pattern < infinityPattern) :
    pointFloor ≤ (exact (units pattern)).point ∧
      (exact (units pattern)).point ≤ pointLimit := by
  have isDigits : (exact (units pattern)).digits = units pattern * Nat.pow 5 1074 := rfl
  have isPlace : (exact (units pattern)).exponent = -1074 := rfl
  constructor
  · have least : digitCount (Nat.pow 5 1074) ≤ digitCount (exact (units pattern)).digits := by
      rw [isDigits]
      exact digitCount_mono (Nat.le_mul_of_pos_left _ (units_pos nonzero))
    have count : 744 < digitCount (Nat.pow 5 1074) := by
      rw [digitCount_eq, Nat.lt_succ_iff]
      exact Nat.le_log_of_pow_le (by decide) (by decide +kernel)
    rw [point, pointFloor, isPlace]
    omega
  · have greatest : digitCount (exact (units pattern)).digits ≤
        digitCount (units infinityPattern * Nat.pow 5 1074) := by
      rw [isDigits]
      exact digitCount_mono (Nat.mul_le_mul_right _ (units_mono finite.le))
    have count : digitCount (units infinityPattern * Nat.pow 5 1074) ≤ 1384 := by
      rw [digitCount_eq, Nat.succ_le_iff]
      exact Nat.log_lt_of_lt_pow (by decide +kernel) (by decide +kernel)
    rw [point, pointLimit, isPlace]
    omega

/-- The exact value of a magnitude reads back as that magnitude. -/
theorem nearestPattern_exact {pattern : Nat} (nonzero : pattern ≠ 0)
    (finite : pattern < infinityPattern) : (exact (units pattern)).nearestPattern = pattern := by
  have isDigits : (exact (units pattern)).digits = units pattern * Nat.pow 5 1074 := rfl
  have isPlace : (exact (units pattern)).exponent = -1074 := rfl
  have notZero : (exact (units pattern)).digits ≠ 0 := by
    have fives : ∀ exponent, Nat.pow 5 exponent ≠ 0 := fun exponent => by simp
    rw [isDigits]
    exact Nat.mul_ne_zero (units_pos nonzero).ne' (fives 1074)
  rcases point_exact nonzero finite with ⟨notSmall, notLarge⟩
  have isTens : Nat.pow 5 1074 * unitsPerOne = 10 ^ 1074 := by decide +kernel
  rw [nearestPattern_eq, if_neg (not_or.mpr ⟨notZero, Int.not_lt.mpr notSmall⟩),
    if_neg (Int.not_lt.mpr notLarge), nearestPattern_tenths (by decide) isTens isDigits isPlace,
    nearestPattern_units finite]

/-- The shortest decimal of a pattern reads back as that pattern. -/
theorem nearestPattern_shortest {pattern : Nat} (nonzero : pattern ≠ 0)
    (finite : pattern < infinityPattern) : (shortest pattern).nearestPattern = pattern := by
  unfold shortest
  simp only
  cases found : (List.range 17).findSome? fun others : Nat =>
      (neighbours (units pattern) (pointOf (units pattern) - 1 - others)).find?
        (·.nearestPattern == pattern) with
  | none => exact nearestPattern_exact nonzero finite
  | some decimal =>
      rcases List.exists_of_findSome?_eq_some found with ⟨others, -, found⟩
      simpa using List.find?_some found

theorem digits_shortest_ne_zero {pattern : Nat} (nonzero : pattern ≠ 0)
    (finite : pattern < infinityPattern) : (shortest pattern).digits ≠ 0 := by
  intro zero
  have same := nearestPattern_shortest nonzero finite
  rw [nearestPattern_eq, if_pos (.inl zero)] at same
  exact nonzero same.symm

/-- The pattern of the least magnitude that is written without an exponent. -/
def firstPositional : Nat :=
  (⟨1, -6⟩ : Decimal).nearestPattern

/-- The pattern of the least magnitude beyond those that are written without an exponent. -/
def positionalLimit : Nat :=
  (⟨1, 21⟩ : Decimal).nearestPattern

/-- The least of them lies a little below `10 ^ -6`, but is written as such. -/
theorem shortest_firstPositional : shortest firstPositional = ⟨10, -7⟩ := by
  have isPoint : pointOf (units firstPositional) = -6 := by
    have isLog : Nat.log 10 (units firstPositional * Nat.pow 10 330 / unitsPerOne) = 323 :=
      Nat.log_eq_of_pow_le_of_lt_pow (by decide +kernel) (by decide +kernel)
    rw [pointOf, digitCount_eq, isLog]
    rfl
  have near : neighbours (units firstPositional) (-7) = [⟨10, -7⟩, ⟨9, -7⟩] := by
    decide +kernel
  have extended : extend ⟨1, -6⟩ 1 = ⟨10, -7⟩ := by decide
  have found : (⟨10, -7⟩ : Decimal).nearestPattern = firstPositional := by
    rw [← extended, nearestPattern_extend, firstPositional]
  simp [shortest, isPoint, List.range_succ_eq_map, near, found]

/-- Magnitudes from `10 ^ -6` up to below `10 ^ 21` are written without an exponent. -/
theorem isPositional_shortest {pattern : Nat} (least : firstPositional ≤ pattern)
    (limit : pattern < positionalLimit) : Numeral.isPositional (shortest pattern) = true := by
  have finite : pattern < infinityPattern := limit.trans_le (nearestPattern_le_infinity _)
  have nonzero : pattern ≠ 0 := by
    have : 0 < firstPositional := by decide +kernel
    omega
  have same := nearestPattern_shortest nonzero finite
  have digits := digits_shortest_ne_zero nonzero finite
  rw [Numeral.isPositional, Bool.and_eq_true, decide_eq_true_eq, decide_eq_true_eq]
  constructor
  · rcases Nat.lt_or_eq_of_le least with greater | isFirst
    · by_contra small
      have := nearestPattern_le_of_point_le (Int.not_lt.mp small)
      rw [same] at this
      exact absurd greater (Nat.not_lt.mpr this)
    · rw [← isFirst, shortest_firstPositional, point, digitCount_eq]
      decide
  · by_contra large
    have := le_nearestPattern_of_lt_point digits (Int.not_le.mp large)
    rw [same] at this
    exact absurd limit (Nat.not_lt.mpr this)

end Descriptor.Decimal
