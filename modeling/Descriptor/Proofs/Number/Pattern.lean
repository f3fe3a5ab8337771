import Descriptor.Number.Binary64
import Mathlib

/-!
# Numbers and their patterns

A finite number is the one with its sign and its pattern, `form_eq_finite`, an infinite one is the
infinity of its sign, and there is one number that is none, `form_eq_nan`.  A minus sign in front
of a finite number sets its sign, `neg_ofPattern`, and it is not the number that is none,
`ofPattern_ne_nan`, so that it equals itself.
-/

namespace Descriptor.Binary64

open Float.Model

/-! ## The forms of a number -/

/-- A number has the sign and the pattern that its bits say. -/
theorem eq_ofPattern (x : Float) :
    x = ofPattern (decide (signBit ≤ x.toBits.toNat)) (x.toBits.toNat % signBit) := by
  have bound := x.toBits.toNat_lt
  have isBits : (if decide (signBit ≤ x.toBits.toNat) = true then signBit else 0) +
      x.toBits.toNat % signBit = x.toBits.toNat := by
    by_cases isNegative : signBit ≤ x.toBits.toNat <;>
      simp only [isNegative, decide_true, decide_false, Bool.false_eq_true, if_true, if_false] <;>
      simp only [signBit, Nat.pow_eq] at isNegative ⊢ <;> omega
  rw [ofPattern, isBits, UInt64.ofNat_toNat, Float.ofBits_toBits]

/-- The form of a number is a matter of its pattern. -/
theorem form_cases (x : Float) :
    x.toBits.toNat % signBit < infinityPattern ∧
        form x = .finite (signBit ≤ x.toBits.toNat) (x.toBits.toNat % signBit) ∨
      x.toBits.toNat % signBit = infinityPattern ∧ form x = .infinite (signBit ≤ x.toBits.toNat) ∨
        infinityPattern < x.toBits.toNat % signBit ∧ form x = .nan := by
  rcases Nat.lt_trichotomy (x.toBits.toNat % signBit) infinityPattern with less | same | greater
  · exact .inl ⟨less, if_pos less⟩
  · refine .inr (.inl ⟨same, ?_⟩)
    rw [form, if_neg (Nat.not_lt.mpr same.ge), if_pos (beq_iff_eq.mpr same)]
  · refine .inr (.inr ⟨greater, ?_⟩)
    rw [form, if_neg (Nat.not_lt.mpr greater.le), if_neg (by simpa using greater.ne')]

/-- A finite number has the sign and the pattern of its form. -/
theorem form_eq_finite {x : Float} {negative : Bool} {pattern : Nat}
    (isForm : form x = .finite negative pattern) :
    pattern < infinityPattern ∧ x = ofPattern negative pattern := by
  rcases form_cases x with ⟨finite, same⟩ | ⟨-, same⟩ | ⟨-, same⟩ <;> rw [isForm] at same
  · obtain ⟨rfl, rfl⟩ := Form.finite.inj same
    exact ⟨finite, eq_ofPattern x⟩
  · contradiction
  · contradiction

/-- An infinite number is the infinity of its sign. -/
theorem form_eq_infinite {x : Float} {negative : Bool} (isForm : form x = .infinite negative) :
    x = ofPattern negative infinityPattern := by
  rcases form_cases x with ⟨-, same⟩ | ⟨isInfinity, same⟩ | ⟨-, same⟩ <;> rw [isForm] at same
  · contradiction
  · obtain rfl := Form.infinite.inj same
    rw [← isInfinity]
    exact eq_ofPattern x
  · contradiction

/-- Bits with the greatest exponent and a mantissa are those of the number that is none. -/
theorem eq_nan_of_infinity_lt {x : Float} (beyond : infinityPattern < x.toBits.toNat % signBit) :
    x = nan := by
  simp only [infinityPattern, patternsPerStep, signBit, Nat.pow_eq] at beyond
  have isPacked : x.toBits.toBitVec = UnpackedFloat.packedNaN .binary64 := by
    refine x.toModel.valid.eq_packedNaN ?_ fun noMantissa => ?_
    · apply BitVec.eq_of_toNat_eq
      have ones : (-BitVec.ofNat Format.binary64.exponentBits 1).toNat = 2047 := rfl
      rw [ones, UnpackedFloat.unpackExponent_def, BitVec.extractLsb'_toNat,
        Nat.shiftRight_eq_div_pow]
      change x.toBits.toNat / 2 ^ 52 % 2 ^ 11 = 2047
      omega
    · have isZero := congrArg BitVec.toNat noMantissa
      rw [UnpackedFloat.unpackMantissa_def, BitVec.extractLsb'_toNat, Nat.shiftRight_zero]
        at isZero
      change x.toBits.toNat % 2 ^ 52 = 0 at isZero
      omega
  have isBits : nan.toBits.toBitVec = UnpackedFloat.packedNaN .binary64 := by decide +kernel
  have same : x.toBits = nan.toBits := UInt64.eq_of_toBitVec_eq (isPacked.trans isBits.symm)
  rw [← Float.ofBits_toBits x, same, Float.ofBits_toBits]

/-- There is one number that is none. -/
theorem form_eq_nan {x : Float} (isForm : form x = .nan) : x = nan := by
  rcases form_cases x with ⟨-, same⟩ | ⟨-, same⟩ | ⟨beyond, -⟩
  · rw [isForm] at same
    contradiction
  · rw [isForm] at same
    contradiction
  · exact eq_nan_of_infinity_lt beyond

theorem form_zero : form 0 = .finite false 0 := by
  decide +kernel

theorem form_neg_zero : form (-0) = .finite true 0 := by
  decide +kernel

/-! ## The bits of finite numbers -/

/-- The bits of the number with the given sign and pattern. -/
def bits (negative : Bool) (pattern : Nat) : BitVec Format.binary64.numBits :=
  .ofNat 64 ((if negative then signBit else 0) + pattern)

section Bits

variable (negative : Bool) {pattern : Nat} (finite : pattern < infinityPattern)
include finite

theorem toNat_bits : (bits negative pattern).toNat = negative.toNat * 2 ^ 63 + pattern := by
  have isNat : (bits negative pattern).toNat =
      ((if negative then signBit else 0) + pattern) % 2 ^ 64 := rfl
  simp only [infinityPattern, patternsPerStep, Nat.pow_eq] at finite
  rw [isNat, signBit, Nat.pow_eq]
  cases negative <;>
    simp only [Bool.false_eq_true, if_true, if_false, Bool.toNat_true, Bool.toNat_false] <;> omega

/-- The exponent of a pattern counts its steps. -/
theorem unpackExponent_bits :
    UnpackedFloat.unpackExponent (bits negative pattern) =
      .ofNat 11 (pattern / patternsPerStep) := by
  apply BitVec.eq_of_toNat_eq
  rw [UnpackedFloat.unpackExponent_def, BitVec.extractLsb'_toNat, toNat_bits negative finite,
    BitVec.toNat_ofNat, Nat.shiftRight_eq_div_pow, patternsPerStep, Nat.pow_eq]
  simp only
  omega

theorem unpackMantissa_bits :
    UnpackedFloat.unpackMantissa (bits negative pattern) = .ofNat 52 pattern := by
  apply BitVec.eq_of_toNat_eq
  rw [UnpackedFloat.unpackMantissa_def, BitVec.extractLsb'_toNat, toNat_bits negative finite,
    BitVec.toNat_ofNat, Nat.shiftRight_zero]
  simp only
  omega

theorem unpackSign_bits :
    UnpackedFloat.unpackSign (bits negative pattern) = .ofNat 1 negative.toNat := by
  apply BitVec.eq_of_toNat_eq
  rw [UnpackedFloat.unpackSign_def, BitVec.extractLsb'_toNat, toNat_bits negative finite,
    BitVec.toNat_ofNat, Nat.shiftRight_eq_div_pow]
  simp only [infinityPattern, patternsPerStep, Nat.pow_eq] at finite ⊢
  omega

/-- The exponent of a finite number is not the greatest. -/
theorem valid_bits : Format.binary64.Valid (bits negative pattern) := by
  refine ⟨fun ones => ?_⟩
  have isExponent := congrArg BitVec.toNat ones
  rw [unpackExponent_bits negative finite] at isExponent
  simp only [infinityPattern, patternsPerStep, Nat.pow_eq] at finite isExponent
  simp at isExponent
  omega

theorem toBits_ofPattern :
    (ofPattern negative pattern).toBits = .ofBitVec (bits negative pattern) :=
  congrArg UInt64.ofBitVec (UnpackedFloat.pack_unpack_of_valid (valid_bits negative finite))

/-- A finite number is a number. -/
theorem ofPattern_ne_nan : ofPattern negative pattern ≠ Float.nan := by
  intro isNan
  have nanBits : Float.nan.toBits.toBitVec.toNat = 0x7ff8000000000000 := by decide +kernel
  rw [← isNan, toBits_ofPattern negative finite, toNat_bits negative finite] at nanBits
  simp only [infinityPattern, patternsPerStep, Nat.pow_eq] at finite
  cases negative <;> simp only [Bool.toNat_true, Bool.toNat_false] at nanBits <;> omega

end Bits

/-! ## Signs -/

theorem unpack_bits_true {pattern : Nat} (finite : pattern < infinityPattern) :
    UnpackedFloat.unpack _ (bits true pattern) =
      (UnpackedFloat.unpack _ (bits false pattern)).neg := by
  unfold UnpackedFloat.unpack
  simp only [unpackExponent_bits _ finite, unpackMantissa_bits _ finite, unpackSign_bits _ finite]
  repeat' split
  all_goals rfl

/-- A minus sign in front of a finite number without a sign sets the sign. -/
theorem neg_ofPattern {pattern : Nat} (finite : pattern < infinityPattern) :
    -ofPattern false pattern = ofPattern true pattern := by
  have unpacked : (Float.Model.ofBits (.ofBitVec (bits false pattern))).unpack =
      UnpackedFloat.unpack _ (bits false pattern) :=
    congrArg (UnpackedFloat.unpack _)
      (UnpackedFloat.pack_unpack_of_valid (valid_bits false finite))
  have negated : (Float.Model.ofBits (.ofBitVec (bits false pattern))).neg =
      Float.Model.ofBits (.ofBitVec (bits true pattern)) := by
    unfold Float.Model.neg Float.Model.ofBits
    unfold Float.Model.ofBits at unpacked
    rw [unpacked, ← unpack_bits_true finite]
  exact congrArg Float.ofModel negated

end Descriptor.Binary64
