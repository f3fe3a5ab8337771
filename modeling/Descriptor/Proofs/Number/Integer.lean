import Descriptor.Proofs.Number.Pattern
import Descriptor.Proofs.Number.Rounding

/-!
# Integers as numbers

An integer below `2 ^ 53` is a number and is got back from it, `toInt?_ofInt`.  Greater ones may be
rounded, but up to `2 ^ 64` the result is finite, `exists_form_ofInt`.
-/

namespace Descriptor.Binary64

/-- The number with a sign and a finite pattern has them in its form. -/
theorem form_ofPattern (negative : Bool) {pattern : Nat} (finite : pattern < infinityPattern) :
    form (ofPattern negative pattern) = .finite negative pattern := by
  have isNat : (ofPattern negative pattern).toBits.toNat = negative.toNat * 2 ^ 63 + pattern := by
    rw [toBits_ofPattern negative finite]
    exact toNat_bits negative finite
  have small : pattern < signBit := by
    simp only [infinityPattern, patternsPerStep, signBit, Nat.pow_eq] at finite ⊢
    omega
  have isSigned : signBit ≤ negative.toNat * signBit + pattern ↔ negative = true := by
    cases negative <;> simp [small]
  have isPattern : (negative.toNat * signBit + pattern) % signBit = pattern := by
    rw [Nat.mul_add_mod_self_right, Nat.mod_eq_of_lt small]
  have isBit : 2 ^ 63 = signBit := rfl
  simp only [form, isNat, isBit, isPattern, isSigned, if_pos finite, Bool.decide_eq_true]

/-- Every magnitude that 53 bits are enough for is one of a finite pattern, if it is not too
great. -/
theorem exists_units_eq {mantissa exponent : Nat} (low : patternsPerStep ≤ mantissa)
    (high : mantissa < 2 * patternsPerStep) (bound : exponent ≤ 2045) :
    ∃ pattern, pattern < infinityPattern ∧ units pattern = mantissa * 2 ^ exponent := by
  have positive := patternsPerStep_pos
  have whole : exponent * patternsPerStep + mantissa =
      (mantissa - patternsPerStep) + (exponent + 1) * patternsPerStep := by
    rw [Nat.succ_mul]
    omega
  have rest : mantissa - patternsPerStep < patternsPerStep := by omega
  refine ⟨exponent * patternsPerStep + mantissa, ?_, ?_⟩
  · have steps : exponent * patternsPerStep ≤ 2045 * patternsPerStep :=
      Nat.mul_le_mul_right _ bound
    rw [infinityPattern]
    omega
  · rw [units, if_neg (by omega), whole, Nat.add_mul_mod_self_right, Nat.mod_eq_of_lt rest,
      Nat.add_mul_div_right _ _ positive, Nat.div_eq_of_lt rest, Nat.add_sub_cancel' low,
      Nat.zero_add, Nat.add_sub_cancel, Nat.pow_eq]

theorem two_pow_eq_unitsPerOne {exponent : Nat} (same : exponent = 1074) :
    2 ^ exponent = unitsPerOne := by
  rw [unitsPerOne, ← same, Nat.pow_eq]

theorem unitsPerOne_pos : 0 < unitsPerOne := by
  rw [← two_pow_eq_unitsPerOne rfl]
  exact Nat.two_pow_pos _

/-- A natural number below `2 ^ 53` has a finite pattern, which is the nearest one. -/
theorem units_nearestPattern {n : Nat} (small : n < 2 ^ 53) :
    nearestPattern (n * unitsPerOne) 1 < infinityPattern ∧
      units (nearestPattern (n * unitsPerOne) 1) = n * unitsPerOne := by
  suffices exact : ∃ pattern, pattern < infinityPattern ∧ units pattern = n * unitsPerOne by
    rcases exact with ⟨pattern, finite, isUnits⟩
    rw [← isUnits, nearestPattern_units finite]
    exact ⟨finite, rfl⟩
  by_cases zero : n = 0
  · exact ⟨0, by decide, by rw [zero, Nat.zero_mul]; decide⟩
  · have bits : n.log2 ≤ 52 := Nat.le_of_lt_succ ((Nat.log2_lt zero).mpr small)
    have powers : 2 ^ n.log2 * 2 ^ (52 - n.log2) = patternsPerStep := by
      rw [← Nat.pow_add, Nat.add_sub_cancel' bits]
      rfl
    have scaled : n * 2 ^ (52 - n.log2) * 2 ^ (n.log2 + 1022) = n * unitsPerOne := by
      rw [Nat.mul_assoc, ← Nat.pow_add, two_pow_eq_unitsPerOne (by omega)]
    rw [← scaled]
    apply exists_units_eq
    · rw [← powers]
      exact Nat.mul_le_mul_right _ (Nat.log2_self_le zero)
    · have above : 2 ^ (n.log2 + 1) * 2 ^ (52 - n.log2) = 2 * patternsPerStep := by
        rw [Nat.pow_succ', Nat.mul_assoc, powers]
      rw [← above]
      exact Nat.mul_lt_mul_of_pos_right Nat.lt_log2_self (Nat.two_pow_pos _)
    · omega

/-- Integers below `2 ^ 53` are got back from their numbers. -/
theorem toInt?_ofInt {n : Int} (small : n.natAbs < 2 ^ 53) : toInt? (ofInt n) = some n := by
  rcases units_nearestPattern small with ⟨finite, isUnits⟩
  have nonzero : (unitsPerOne : Int) ≠ 0 := Int.natCast_ne_zero.mpr unitsPerOne_pos.ne'
  rw [toInt?, ofInt, form_ofPattern _ finite]
  simp only [isUnits, Nat.mul_mod_left, beq_self_eq_true, if_true, Nat.cast_mul,
    Int.mul_ediv_cancel _ nonzero, decide_eq_true_eq, Option.some.injEq]
  split <;> omega

/-- The number nearest to an integer of 64 bits is finite. -/
theorem exists_form_ofInt {n : Int} (small : n.natAbs ≤ 2 ^ 64) :
    ∃ negative pattern, form (ofInt n) = .finite negative pattern := by
  have scaled : patternsPerStep * 2 ^ 1086 = 2 ^ 64 * unitsPerOne := by
    rw [patternsPerStep, Nat.pow_eq, ← two_pow_eq_unitsPerOne rfl, ← Nat.pow_add, ← Nat.pow_add]
  have positive := patternsPerStep_pos
  rcases exists_units_eq le_rfl (by omega) (by decide : 1086 ≤ 2045) with
    ⟨pattern, finite, isUnits⟩
  have below : nearestPattern (n.natAbs * unitsPerOne) 1 ≤ pattern := by
    rw [← nearestPattern_units finite, isUnits, scaled]
    exact nearestPattern_mono_left 1 (Nat.mul_le_mul_right _ small)
  exact ⟨_, _, form_ofPattern _ (below.trans_lt finite)⟩

end Descriptor.Binary64
