import Descriptor.Proofs.Number.Numeral
import Descriptor.Proofs.Scanning.Coverage

/-!
# Numbers written and read back

Every number is got back from its text, but for the sign of zero, which is not written:
`text_of_number_reads_back`.  A finite magnitude is written without an exponent from `10 ^ -6` up to
below `10 ^ 21` and with one otherwise.  Either way the text is a numeral of the shortest decimal,
or of the same decimal without zeros behind its digits, and so has the nearest pattern that the
shortest decimal was chosen for.
-/

namespace Descriptor

open Piece

/-! ## Decimals with an exponent -/

namespace Decimal

open Numeral Binary64

theorem isDigits_toDigits (n : Nat) : IsDigits (Nat.toDigits 10 n) := by
  constructor
  · rw [← List.length_pos_iff, length_toDigits]
    exact digitCount_pos n
  · exact fun c member => Nat.isDigit_of_mem_toDigits (by decide) (by decide) member

theorem isExponent_written (exponent : Int) :
    IsExponent ('e' :: (if exponent < 0 then '-' else '+') :: Nat.toDigits 10 exponent.natAbs)
      exponent := by
  have digits := isDigits_toDigits exponent.natAbs
  have value : ofDigits (Nat.toDigits 10 exponent.natAbs) = exponent.natAbs :=
    Nat.ofDigitChars_ten_toDigits
  split
  · have written := IsExponent.present (.inl rfl) .minus digits
    rwa [value, if_pos rfl, Int.ofNat_natAbs_of_nonpos (by omega), Int.neg_neg] at written
  · have written := IsExponent.present (.inl rfl) .plus digits
    rwa [value, if_neg Bool.false_ne_true, Int.natAbs_of_nonneg (by omega)] at written

/-- A decimal written with an exponent has one digit before the dot, or no dot. -/
theorem exists_scientific_eq {d : Decimal} (nonzero : d.digits ≠ 0) :
    ∃ first others, d.significant = first :: others ∧
      d.scientific = (if others = [] then [first] else first :: '.' :: others) ++
        'e' :: (if d.point - 1 < 0 then '-' else '+') ::
          Nat.toDigits 10 (d.point - 1).natAbs := by
  have nonempty := (isDigits_significant nonzero).1
  cases isSignificant : d.significant with
  | nil => exact absurd isSignificant nonempty
  | cons first others =>
      refine ⟨first, others, rfl, ?_⟩
      rw [scientific, isSignificant]
      cases others <;> rfl

/-- A decimal written with an exponent reads back without the zeros behind its digits. -/
theorem read?_scientific {d : Decimal} (nonzero : d.digits ≠ 0) :
    read? d.scientific = some d.reduce := by
  rcases exists_scientific_eq nonzero with ⟨first, others, isSignificant, isText⟩
  have digits := isDigits_significant nonzero
  rw [isSignificant] at digits
  have isMantissa : IsMantissa (if others = [] then [first] else first :: '.' :: others)
      (first :: others) others.length := by
    split
    · rename_i none
      subst none
      exact .whole digits
    · exact @IsMantissa.dotted [first] others digits
  refine read?_eq_some_iff.mpr
    ⟨_, _, _, _, _, isText, isMantissa, isExponent_written (d.point - 1), ?_⟩
  rw [reduce, isSignificant, List.length_cons, Decimal.mk.injEq]
  exact ⟨rfl, by omega⟩

/-- A number of digits with a fraction or without, and an exponent with the given sign. -/
def IsExponential (sign : Char) (text : List Char) : Prop :=
  ∃ mantissa digits, Part.IsPlainNumber mantissa ∧ IsDigits digits ∧
    text = mantissa ++ 'e' :: sign :: digits

theorem isExponential_scientific {d : Decimal} (nonzero : d.digits ≠ 0) :
    IsExponential (if d.point - 1 < 0 then '-' else '+') d.scientific := by
  rcases exists_scientific_eq nonzero with ⟨first, others, isSignificant, isText⟩
  have digits := (isDigits_significant nonzero).2
  rw [isSignificant, List.forall_mem_cons] at digits
  have isFirst : IsDigits [first] := ⟨by simp, by simpa using digits.1⟩
  refine ⟨_, _, ?_, isDigits_toDigits _, isText⟩
  split
  · exact ⟨[first], [], isFirst, .inl rfl, rfl⟩
  · rename_i more
    exact ⟨[first], _, isFirst, .inr ⟨others, ⟨more, digits.2⟩, rfl⟩, rfl⟩

/-! ## Which form a magnitude is written in -/

theorem shortest_positionalLimit : shortest positionalLimit = ⟨1, 21⟩ := by
  decide +kernel

/-- The form that the text of a magnitude has: its exponent is written if it is below `10 ^ -6`, and
if it is `10 ^ 21` or more. -/
def HasForm (pattern : Nat) (text : List Char) : Prop :=
  if pattern < firstPositional then IsExponential '-' text
  else if positionalLimit ≤ pattern then IsExponential '+' text
  else Part.IsPlainNumber text

section Form

variable {pattern : Nat}

/-- Lesser magnitudes than `10 ^ -6` have a shortest decimal with more zeros behind the dot. -/
theorem point_le_of_lt_firstPositional (nonzero : pattern ≠ 0)
    (less : pattern < firstPositional) : (shortest pattern).point ≤ -6 := by
  have finite : pattern < infinityPattern := less.trans_le (nearestPattern_le_infinity _)
  by_contra greater
  have le := le_nearestPattern_of_lt_point (digits_shortest_ne_zero nonzero finite)
    (Int.not_le.mp greater)
  rw [nearestPattern_shortest nonzero finite] at le
  exact absurd less (Nat.not_lt.mpr le)

/-- Magnitudes from `10 ^ 21` on have a shortest decimal with more digits before the dot. -/
theorem lt_point_of_positionalLimit_le (finite : pattern < infinityPattern)
    (le : positionalLimit ≤ pattern) : 21 < (shortest pattern).point := by
  have nonzero : pattern ≠ 0 := by
    have : 0 < positionalLimit := by decide +kernel
    omega
  rcases Nat.lt_or_eq_of_le le with greater | rfl
  · by_contra small
    have := nearestPattern_le_of_point_le (Int.not_lt.mp small)
    rw [nearestPattern_shortest nonzero finite] at this
    exact absurd greater (Nat.not_lt.mpr this)
  · rw [shortest_positionalLimit]
    decide +kernel

end Form

end Decimal

/-! ## Reading what was written -/

namespace Numeral

open Binary64

section Written

variable {pattern : Nat} (nonzero : pattern ≠ 0) (finite : pattern < infinityPattern)
include nonzero finite

/-- Either way to write a magnitude is a numeral of its pattern. -/
theorem exists_read?_written :
    ∃ d, Decimal.read? (if isPositional (Decimal.shortest pattern)
      then (Decimal.shortest pattern).positional else (Decimal.shortest pattern).scientific) =
        some d ∧ d.nearestPattern = pattern := by
  have digits := Decimal.digits_shortest_ne_zero nonzero finite
  have same := Decimal.nearestPattern_shortest nonzero finite
  split
  · rcases Decimal.readsAs_positional digits with ⟨_, _, d, -, -, -, isRead, sameAs⟩
    exact ⟨d, isRead, sameAs.trans same⟩
  · exact ⟨_, Decimal.read?_scientific digits, (Decimal.nearestPattern_reduce _).trans same⟩

/-- The number of digits before the dot decides as the size of the magnitude does. -/
theorem hasForm_written :
    Decimal.HasForm pattern (if isPositional (Decimal.shortest pattern)
      then (Decimal.shortest pattern).positional else (Decimal.shortest pattern).scientific) := by
  have digits := Decimal.digits_shortest_ne_zero nonzero finite
  have exponential := Decimal.isExponential_scientific digits
  have outside {d : Decimal} (outside : d.point ≤ -6 ∨ 21 < d.point) : ¬isPositional d = true := by
    simp only [isPositional, Bool.and_eq_true, decide_eq_true_eq]
    omega
  rw [Decimal.HasForm]
  split
  · rename_i small
    have isPoint := Decimal.point_le_of_lt_firstPositional nonzero small
    rw [if_pos (by omega)] at exponential
    rwa [if_neg (outside (.inl isPoint))]
  · rename_i large
    split
    · rename_i limit
      have isPoint := Decimal.lt_point_of_positionalLimit_le finite limit
      rw [if_neg (by omega)] at exponential
      rwa [if_neg (outside (.inr isPoint))]
    · rename_i limit
      rw [if_pos (Decimal.isPositional_shortest (Nat.le_of_not_lt large) (Nat.lt_of_not_le limit))]
      rcases Decimal.readsAs_positional digits with
        ⟨whole, decimals, -, isText, isDigits, isFraction, -⟩
      exact ⟨whole, decimals, isDigits, isFraction, isText⟩

end Written

/-- Every number is read back from its text, a zero without its sign. -/
theorem read_write (x : Float) : read (write x) = if x = -0 then 0 else x := by
  cases isForm : form x with
  | nan =>
      obtain rfl := form_eq_nan isForm
      decide +kernel
  | infinite negative =>
      obtain rfl := form_eq_infinite isForm
      cases negative <;> decide +kernel
  | finite negative pattern =>
      obtain ⟨finite, rfl⟩ := form_eq_finite isForm
      by_cases zero : pattern = 0
      · subst zero
        cases negative <;> decide +kernel
      · rcases exists_read?_written zero finite with ⟨d, isRead, same⟩
        have noZero : ofPattern negative pattern ≠ -0 := by
          intro isZero
          rw [isZero, form_neg_zero] at isForm
          exact zero (Form.finite.inj isForm).2.symm
        rw [write_of_form isForm zero, read_signed isRead, Decimal.toFloat, same, if_neg noZero]

end Numeral

/-- A number converted to text and back is the same number, but for the sign of zero.  Its text has
an exponent below `10 ^ -6` and from `10 ^ 21` on, and none between them. -/
theorem text_of_number_reads_back (heap : Heap) (x : Float) :
    (Value.string (heap.text (.number x))).toNumber heap = (if x = -0 then 0 else x) ∧
      ∀ negative pattern, Binary64.form x = .finite negative pattern → pattern ≠ 0 →
        ∃ body, heap.text (.number x) = .ofList (Numeral.signed negative body) ∧
          Decimal.HasForm pattern body := by
  have isText : heap.text (.number x) = Numeral.write x := by
    rw [Heap.text, Heap.textWithin]
  rw [isText]
  refine ⟨Numeral.read_write x, fun negative pattern isForm nonzero => ?_⟩
  exact ⟨_, Numeral.write_of_form isForm nonzero,
    Numeral.hasForm_written nonzero (Binary64.form_eq_finite isForm).1⟩

end Descriptor
