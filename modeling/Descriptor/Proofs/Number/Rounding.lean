import Descriptor.Number.Binary64
import Mathlib

/-!
# Rounding to the nearest pattern

`nearestPattern` gives a pattern for a quotient of natural numbers.  It depends on the quotient
only, `nearestPattern_mul`, keeps the order of quotients, `nearestPattern_mono_left`, and gives
every finite pattern back for the magnitude that it stands for, `nearestPattern_units`.
-/

namespace Descriptor.Binary64

/-! ## Rounding a quotient to a natural number -/

/-- The natural number nearest to a quotient, the even one if two are. -/
def halfEven (numerator denominator : Nat) : Nat :=
  let below := numerator / denominator
  let rest := numerator % denominator
  if denominator < 2 * rest ∨ denominator = 2 * rest ∧ below % 2 = 1 then below + 1 else below

theorem le_halfEven (numerator denominator : Nat) :
    numerator / denominator ≤ halfEven numerator denominator := by
  simp only [halfEven]
  split <;> omega

theorem halfEven_le (numerator denominator : Nat) :
    halfEven numerator denominator ≤ numerator / denominator + 1 := by
  simp only [halfEven]
  split <;> omega

/-- A natural number is nearest to itself. -/
theorem halfEven_mul_self (n : Nat) {denominator : Nat} (positive : 0 < denominator) :
    halfEven (n * denominator) denominator = n := by
  simp only [halfEven, Nat.mul_mod_left, Nat.mul_div_cancel n positive]
  split <;> omega

theorem halfEven_mul (numerator denominator : Nat) {scale : Nat} (positive : 0 < scale) :
    halfEven (numerator * scale) (denominator * scale) = halfEven numerator denominator := by
  have double : 2 * (numerator % denominator * scale) = 2 * (numerator % denominator) * scale :=
    (Nat.mul_assoc ..).symm
  simp only [halfEven, Nat.mul_div_mul_right _ _ positive, Nat.mul_mod_mul_right, double,
    Nat.mul_lt_mul_right positive, Nat.mul_left_inj positive.ne']

theorem halfEven_mono {a b denominator : Nat} (le : a ≤ b) :
    halfEven a denominator ≤ halfEven b denominator := by
  rcases Nat.lt_or_eq_of_le (Nat.div_le_div_right le : a / denominator ≤ b / denominator) with
    less | same
  · exact (halfEven_le a denominator).trans (less.trans_le (le_halfEven b denominator))
  · have rests : a % denominator ≤ b % denominator := by
      have wholeA := Nat.div_add_mod a denominator
      have wholeB := Nat.div_add_mod b denominator
      rw [same] at wholeA
      omega
    simp only [halfEven, same]
    split <;> split <;> omega

/-! ## How far a quotient lies beyond the patterns that count units -/

/-- How often the distance between neighbours has doubled at a quotient of units. -/
def doublings (numerator denominator : Nat) : Nat :=
  (numerator / denominator).log2 - 52

theorem nearestPattern_eq (numerator denominator : Nat) :
    nearestPattern numerator denominator =
      min (doublings numerator denominator * patternsPerStep +
        halfEven numerator (denominator * 2 ^ doublings numerator denominator))
          infinityPattern := by
  simp only [nearestPattern, halfEven, doublings, Nat.pow_eq]
  congr 2
  exact if_congr (by simp) rfl rfl

theorem patternsPerStep_pos : 0 < patternsPerStep :=
  Nat.pow_pos (by decide)

/-- A quotient of units in its distance lies below twice the patterns of a step. -/
theorem div_lt_of_doublings (numerator denominator : Nat) :
    numerator / (denominator * 2 ^ doublings numerator denominator) < 2 * patternsPerStep := by
  rw [← Nat.div_div_eq_div_mul, Nat.div_lt_iff_lt_mul (Nat.pow_pos (by decide))]
  have bound := Nat.lt_log2_self (n := numerator / denominator)
  refine bound.trans_le ?_
  rw [patternsPerStep, Nat.pow_eq, ← Nat.pow_succ', ← Nat.pow_add]
  exact Nat.pow_le_pow_right (by decide) (by unfold doublings; omega)

/-- Where the distance has doubled, it does not lie below the patterns of a step. -/
theorem le_div_of_doublings {numerator denominator : Nat}
    (doubled : 0 < doublings numerator denominator) :
    patternsPerStep ≤ numerator / (denominator * 2 ^ doublings numerator denominator) := by
  unfold doublings at doubled
  have nonzero : numerator / denominator ≠ 0 := by
    intro zero
    simp [zero] at doubled
  rw [← Nat.div_div_eq_div_mul, Nat.le_div_iff_mul_le (Nat.pow_pos (by decide)),
    patternsPerStep, Nat.pow_eq, ← Nat.pow_add, doublings]
  exact (Nat.pow_le_pow_right (by decide) (by omega)).trans (Nat.log2_self_le nonzero)

theorem log2_mul_pow {n : Nat} (nonzero : n ≠ 0) (k : Nat) : (n * 2 ^ k).log2 = n.log2 + k := by
  have positive : 0 < 2 ^ k := Nat.two_pow_pos k
  rw [Nat.log2_eq_iff (Nat.mul_ne_zero nonzero positive.ne'), Nat.pow_add, Nat.add_right_comm,
    Nat.pow_add]
  exact ⟨Nat.mul_le_mul_right _ (Nat.log2_self_le nonzero),
    Nat.mul_lt_mul_of_pos_right Nat.lt_log2_self positive⟩

/-! ## Magnitudes -/

theorem units_pos {pattern : Nat} (nonzero : pattern ≠ 0) : 0 < units pattern := by
  unfold units
  split
  · omega
  · have := patternsPerStep_pos
    exact Nat.mul_pos (by omega) (Nat.pow_pos (by decide))

/-- Magnitudes are in the order of their patterns. -/
theorem units_mono {pattern other : Nat} (le : pattern ≤ other) : units pattern ≤ units other := by
  have positive := patternsPerStep_pos
  have rest := Nat.mod_lt pattern positive
  unfold units
  by_cases otherSmall : other < patternsPerStep
  · rw [if_pos otherSmall, if_pos (by omega)]
    exact le
  · rw [if_neg otherSmall]
    have twos : 0 < Nat.pow 2 (other / patternsPerStep - 1) := Nat.pow_pos (by decide)
    by_cases small : pattern < patternsPerStep
    · rw [if_pos small]
      calc pattern
          ≤ patternsPerStep + other % patternsPerStep := by omega
        _ ≤ _ := Nat.le_mul_of_pos_right _ twos
    · rw [if_neg small]
      have steps : 0 < pattern / patternsPerStep := Nat.div_pos (by omega) positive
      rcases Nat.lt_or_eq_of_le (Nat.div_le_div_right le :
        pattern / patternsPerStep ≤ other / patternsPerStep) with less | same
      · calc (patternsPerStep + pattern % patternsPerStep) *
              Nat.pow 2 (pattern / patternsPerStep - 1)
            ≤ patternsPerStep * 2 * Nat.pow 2 (pattern / patternsPerStep - 1) :=
              Nat.mul_le_mul_right _ (by omega)
          _ = patternsPerStep * Nat.pow 2 (pattern / patternsPerStep) := by
              rw [Nat.mul_assoc, Nat.pow_eq, Nat.pow_eq, ← Nat.pow_succ', Nat.succ_eq_add_one,
                Nat.sub_add_cancel steps]
          _ ≤ patternsPerStep * Nat.pow 2 (other / patternsPerStep - 1) :=
              Nat.mul_le_mul_left _ (Nat.pow_le_pow_right (by decide) (by omega))
          _ ≤ _ := Nat.mul_le_mul_right _ (Nat.le_add_right _ _)
      · have wholes := Nat.div_add_mod pattern patternsPerStep
        have others := Nat.div_add_mod other patternsPerStep
        rw [same] at wholes ⊢
        exact Nat.mul_le_mul_right _ (by omega)

/-! ## Laws of rounding -/

/-- The nearest pattern depends on the quotient only. -/
theorem nearestPattern_mul (numerator denominator : Nat) {scale : Nat} (positive : 0 < scale) :
    nearestPattern (numerator * scale) (denominator * scale) =
      nearestPattern numerator denominator := by
  have same : doublings (numerator * scale) (denominator * scale) =
      doublings numerator denominator := by
    rw [doublings, Nat.mul_div_mul_right _ _ positive, doublings]
  rw [nearestPattern_eq, nearestPattern_eq, same, Nat.mul_right_comm,
    halfEven_mul _ _ positive]

theorem nearestPattern_le (numerator denominator : Nat) :
    nearestPattern numerator denominator ≤ infinityPattern := by
  rw [nearestPattern_eq]
  exact Nat.min_le_right _ _

/-- A greater quotient has no lesser pattern. -/
theorem nearestPattern_mono_left {a b : Nat} (denominator : Nat) (le : a ≤ b) :
    nearestPattern a denominator ≤ nearestPattern b denominator := by
  have fewer : doublings a denominator ≤ doublings b denominator := by
    have logs : (a / denominator).log2 ≤ (b / denominator).log2 := by
      rw [Nat.log2_eq_log_two, Nat.log2_eq_log_two]
      exact Nat.log_mono_right (Nat.div_le_div_right le)
    unfold doublings
    omega
  rw [nearestPattern_eq, nearestPattern_eq]
  refine min_le_min_right _ ?_
  rcases Nat.lt_or_eq_of_le fewer with less | same
  · -- Below the first doubling there are fewer patterns than before the second quotient.
    have below := halfEven_le a (denominator * 2 ^ doublings a denominator)
    have small := div_lt_of_doublings a denominator
    have above := le_halfEven b (denominator * 2 ^ doublings b denominator)
    have large := le_div_of_doublings (Nat.zero_lt_of_lt less)
    have steps := Nat.mul_le_mul_right patternsPerStep (Nat.succ_le_of_lt less)
    rw [Nat.succ_mul] at steps
    omega
  · rw [same]
    exact Nat.add_le_add_left (halfEven_mono le) _

/-- The magnitude of a pattern has that pattern. -/
theorem nearestPattern_units {pattern : Nat} (finite : pattern < infinityPattern) :
    nearestPattern (units pattern) 1 = pattern := by
  have positive := patternsPerStep_pos
  rw [nearestPattern_eq, Nat.one_mul]
  suffices same : doublings (units pattern) 1 * patternsPerStep +
      halfEven (units pattern) (2 ^ doublings (units pattern) 1) = pattern by
    rw [same, Nat.min_eq_left finite.le]
  unfold units
  split
  · rename_i small
    have none : doublings pattern 1 = 0 := by
      rw [doublings, Nat.div_one, Nat.sub_eq_zero_iff_le]
      by_cases zero : pattern = 0
      · simp [zero]
      · have := (Nat.log2_lt zero).mpr small
        omega
    rw [none, Nat.pow_zero]
    simpa using halfEven_mul_self pattern Nat.one_pos
  · rename_i large
    have steps : 0 < pattern / patternsPerStep := Nat.div_pos (by omega) positive
    have rest := Nat.mod_lt pattern positive
    have whole := Nat.div_add_mod' pattern patternsPerStep
    have isLog : (patternsPerStep + pattern % patternsPerStep).log2 = 52 := by
      rw [Nat.log2_eq_iff (by omega)]
      simp only [patternsPerStep, Nat.pow_eq] at rest ⊢
      omega
    have isDoublings : doublings ((patternsPerStep + pattern % patternsPerStep) *
        2 ^ (pattern / patternsPerStep - 1)) 1 = pattern / patternsPerStep - 1 := by
      rw [doublings, Nat.div_one, log2_mul_pow (by omega), isLog]
      omega
    rw [Nat.pow_eq, isDoublings, halfEven_mul_self _ (Nat.pow_pos (by decide)),
      Nat.sub_one_mul]
    have le : patternsPerStep ≤ pattern / patternsPerStep * patternsPerStep :=
      Nat.le_mul_of_pos_left _ steps
    omega

end Descriptor.Binary64
