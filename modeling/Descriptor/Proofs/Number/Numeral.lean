import Descriptor.Proofs.Number.Grammar

/-!
# Numbers as text and back

A number of ordinary magnitude is written without an exponent, and reading its digits and putting
the sign in front gives it back, `exists_writtenAs`.
-/

namespace Descriptor

open Piece

namespace Decimal

/-! ## Digits -/

theorem length_toDigits (n : Nat) : (Nat.toDigits 10 n).length = digitCount n := by
  induction n using digitCount.induct with
  | case1 n small =>
      rw [digitCount, if_pos small, Nat.toDigits_of_lt_base small, List.length_singleton]
  | case2 n large ih =>
      rw [digitCount, if_neg large, Nat.toDigits_of_base_le (by decide) (Nat.le_of_not_lt large),
        List.length_append, List.length_singleton, ih]

theorem ofDigits_append (digits more : List Char) :
    ofDigits (digits ++ more) = ofDigits digits * 10 ^ more.length + ofDigits more := by
  change Nat.ofDigitChars 10 (digits ++ more) 0 = _
  rw [Nat.ofDigitChars_append, Nat.ofDigitChars_eq_ofDigitChars_zero, Nat.mul_comm]
  rfl

theorem ofDigits_replicate (zeros : Nat) : ofDigits (List.replicate zeros '0') = 0 := by
  change Nat.ofDigitChars 10 (List.replicate zeros '0') 0 = _
  rw [Nat.ofDigitChars_replicate_zero, Nat.mul_zero]

/-- Zeros before digits do not count. -/
theorem ofDigits_zeros_append (zeros : Nat) (digits : List Char) :
    ofDigits (List.replicate zeros '0' ++ digits) = ofDigits digits := by
  rw [ofDigits_append, ofDigits_replicate, Nat.zero_mul, Nat.zero_add]

/-- Zeros behind digits multiply by powers of ten. -/
theorem ofDigits_append_zeros (digits : List Char) (zeros : Nat) :
    ofDigits (digits ++ List.replicate zeros '0') = ofDigits digits * 10 ^ zeros := by
  rw [ofDigits_append, ofDigits_replicate, Nat.add_zero, List.length_replicate]

/-- The digits of a decimal are the significant ones and zeros. -/
theorem exists_toDigits_eq (d : Decimal) :
    ∃ zeros, Nat.toDigits 10 d.digits = d.significant ++ List.replicate zeros '0' := by
  refine ⟨((Nat.toDigits 10 d.digits).reverse.takeWhile (· == '0')).length, ?_⟩
  have zeros := List.eq_replicate_of_mem (a := '0')
    (l := (Nat.toDigits 10 d.digits).reverse.takeWhile (· == '0')) fun c member => by
      simpa using List.mem_takeWhile_imp (p := (· == '0')) member
  have whole := List.takeWhile_append_dropWhile (p := (· == '0'))
    (l := (Nat.toDigits 10 d.digits).reverse)
  rw [significant, ← List.reverse_replicate, ← zeros, ← List.reverse_append, whole,
    List.reverse_reverse]

theorem isDigits_significant {d : Decimal} (nonzero : d.digits ≠ 0) :
    IsDigits d.significant := by
  rcases exists_toDigits_eq d with ⟨zeros, same⟩
  constructor
  · intro none
    have value := Nat.ofDigitChars_ten_toDigits (n := d.digits)
    rw [same, none, List.nil_append, Nat.ofDigitChars_replicate_zero, Nat.mul_zero] at value
    exact nonzero value.symm
  · intro c member
    refine Nat.isDigit_of_mem_toDigits (b := 10) (n := d.digits) (by decide) (by decide) ?_
    rw [same]
    exact List.mem_append_left _ member

/-- The same decimal without zeros behind its digits. -/
def reduce (d : Decimal) : Decimal :=
  ⟨ofDigits d.significant, d.point - d.significant.length⟩

theorem exists_extend_reduce (d : Decimal) : ∃ zeros, d.reduce.extend zeros = d := by
  rcases exists_toDigits_eq d with ⟨zeros, same⟩
  have value : ofDigits d.significant * 10 ^ zeros = d.digits := by
    have value := Nat.ofDigitChars_ten_toDigits (n := d.digits)
    rw [same] at value
    exact (ofDigits_append_zeros d.significant zeros).symm.trans value
  have count := congrArg List.length same
  rw [length_toDigits, List.length_append, List.length_replicate] at count
  refine ⟨zeros, ?_⟩
  rcases d with ⟨digits, exponent⟩
  simp only [reduce, extend, point, value, Decimal.mk.injEq, true_and] at count ⊢
  omega

theorem nearestPattern_reduce (d : Decimal) : d.reduce.nearestPattern = d.nearestPattern := by
  rcases exists_extend_reduce d with ⟨zeros, same⟩
  have kept := nearestPattern_extend d.reduce zeros
  rw [same] at kept
  exact kept.symm

/-! ## Reading digits -/

theorem read?_mantissa {text digits : List Char} {places : Nat}
    (isMantissa : Numeral.IsMantissa text digits places) :
    read? text = some ⟨ofDigits digits, -places⟩ :=
  read?_eq_some_iff.mpr ⟨text, digits, [], places, 0, (List.append_nil text).symm, isMantissa,
    .absent, by rw [Int.zero_sub]⟩

/-- The text is a number without a sign or an exponent and reads as a decimal with the same
nearest pattern. -/
def ReadsAs (text : List Char) (d : Decimal) : Prop :=
  ∃ whole decimals read, text = whole ++ decimals ∧ IsDigits whole ∧ IsFraction decimals ∧
    read? text = some read ∧ read.nearestPattern = d.nearestPattern

theorem readsAs_digits {whole : List Char} {d : Decimal} (digits : IsDigits whole)
    (same : (⟨ofDigits whole, 0⟩ : Decimal).nearestPattern = d.nearestPattern) :
    ReadsAs whole d :=
  ⟨whole, [], _, (List.append_nil whole).symm, digits, .inl rfl, read?_mantissa (.whole digits),
    same⟩

theorem readsAs_fraction {whole fraction : List Char} {d : Decimal} (digits : IsDigits whole)
    (isDigits : IsDigits fraction)
    (same : (⟨ofDigits (whole ++ fraction), -fraction.length⟩ : Decimal).nearestPattern =
      d.nearestPattern) : ReadsAs (whole ++ '.' :: fraction) d :=
  have inBoth := List.forall_mem_append.mpr ⟨digits.2, isDigits.2⟩
  ⟨whole, _, _, rfl, digits, .inr ⟨fraction, isDigits, rfl⟩,
    read?_mantissa (.dotted ⟨List.append_ne_nil_of_left_ne_nil digits.1 _, inBoth⟩), same⟩

theorem isDigit_of_mem_replicate {zeros : Nat} {c : Char}
    (member : c ∈ List.replicate zeros '0') : c.isDigit = true := by
  rw [List.eq_of_mem_replicate member]
  rfl

/-- A decimal written without an exponent reads back. -/
theorem readsAs_positional {d : Decimal} (nonzero : d.digits ≠ 0) : ReadsAs d.positional d := by
  rcases isDigits_significant nonzero with ⟨nonempty, digits⟩
  rw [positional]
  simp only
  split
  · rename_i small
    have zero : IsDigits ['0'] := ⟨by simp, by simp⟩
    refine readsAs_fraction zero ⟨by simp [nonempty], ?_⟩ ?_
    · intro c member
      rcases List.mem_append.mp member with isZero | isSignificant
      · exact isDigit_of_mem_replicate isZero
      · exact digits c isSignificant
    · have value := ofDigits_zeros_append ((-d.point).toNat + 1) d.significant
      rw [List.replicate_succ, List.cons_append] at value
      rw [← nearestPattern_reduce d, reduce, List.singleton_append, List.append_eq, value]
      congr 2
      simp only [List.length_append, List.length_replicate]
      omega
  · split
    · rename_i large enough
      refine readsAs_digits ⟨by simp [nonempty], ?_⟩ ?_
      · intro c member
        rcases List.mem_append.mp member with isSignificant | isZero
        · exact digits c isSignificant
        · exact isDigit_of_mem_replicate isZero
      · rw [← nearestPattern_reduce d,
          ← nearestPattern_extend d.reduce (d.point.toNat - d.significant.length), extend, reduce,
          ofDigits_append_zeros]
        congr 2
        simp only
        omega
    · rename_i large short
      have counts := List.length_drop (i := d.point.toNat) (l := d.significant)
      refine readsAs_fraction ⟨?_, fun c member => digits c (List.mem_of_mem_take member)⟩
        ⟨?_, fun c member => digits c (List.mem_of_mem_drop member)⟩ ?_
      · simp [nonempty]
        omega
      · intro none
        rw [none, List.length_nil] at counts
        omega
      · rw [← nearestPattern_reduce d, reduce, List.take_append_drop]
        congr 2
        omega

end Decimal

namespace Numeral

open Binary64

/-- Zero, or a magnitude from `10 ^ -6` up to below `10 ^ 21`. -/
def IsPlain (x : Float) : Prop :=
  ∃ negative pattern, form x = .finite negative pattern ∧
    (pattern = 0 ∨ Decimal.firstPositional ≤ pattern ∧ pattern < Decimal.positionalLimit)

/-- A number is written as a sign or none, digits, and a fraction or none.  Read without the sign
and then negated if there is one, they give an equal number. -/
structure WrittenAs (x : Float) (negative : Bool) (whole decimals : List Char) : Prop where
  text : write x = .ofList (signed negative (whole ++ decimals))
  digits : IsDigits whole
  fraction : IsFraction decimals
  value : (x == if negative then -read (.ofList (whole ++ decimals))
    else read (.ofList (whole ++ decimals))) = true

theorem write_of_form {x : Float} {negative : Bool} {pattern : Nat}
    (isForm : form x = .finite negative pattern) (nonzero : pattern ≠ 0) :
    write x = .ofList (signed negative (if isPositional (Decimal.shortest pattern)
      then (Decimal.shortest pattern).positional else (Decimal.shortest pattern).scientific)) := by
  unfold write
  rw [isForm]
  cases pattern with
  | zero => exact absurd rfl nonzero
  | succ pattern => rfl

/-- Zero is written without its sign. -/
theorem writtenAs_of_form_zero {x : Float} {negative : Bool}
    (isForm : form x = .finite negative 0) : WrittenAs x false ['0'] [] where
  text := by
    unfold write
    rw [isForm]
    rfl
  digits := ⟨by simp, by simp⟩
  fraction := .inl rfl
  value := by
    have zero : Decimal.read? (['0'] ++ []) = some ⟨0, 0⟩ := by decide
    have isRead : read (.ofList (['0'] ++ [])) = _ := read_signed zero false
    rw [if_neg (by simp), isRead, Decimal.toFloat, Decimal.nearestPattern_eq, if_pos (.inl rfl),
      (form_eq_finite isForm).2]
    cases negative <;> decide +kernel

/-- Numbers of ordinary magnitude are so written. -/
theorem exists_writtenAs {x : Float} (plain : IsPlain x) :
    ∃ negative whole decimals, WrittenAs x negative whole decimals := by
  rcases plain with ⟨negative, pattern, isForm, range⟩
  rcases form_eq_finite isForm with ⟨finite, rfl⟩
  by_cases zero : pattern = 0
  · subst zero
    exact ⟨false, ['0'], [], writtenAs_of_form_zero isForm⟩
  · rcases range.resolve_left zero with ⟨least, limit⟩
    rcases Decimal.readsAs_positional (Decimal.digits_shortest_ne_zero zero finite) with
      ⟨whole, decimals, decimal, isText, digits, fraction, isRead, same⟩
    rw [Decimal.nearestPattern_shortest zero finite] at same
    rw [isText] at isRead
    have isValue : read (.ofList (whole ++ decimals)) = _ := read_signed isRead false
    rw [Decimal.toFloat, same] at isValue
    refine ⟨negative, whole, decimals, ?_, digits, fraction, ?_⟩
    · rw [write_of_form isForm zero, if_pos (Decimal.isPositional_shortest least limit), isText]
    · rw [isValue]
      have equal : (ofPattern negative pattern == ofPattern negative pattern) = true :=
        Float.beq_self_iff.mpr (ofPattern_ne_nan negative finite)
      cases negative
      · exact equal
      · rw [if_pos rfl, neg_ofPattern finite]
        exact equal

end Numeral

end Descriptor
