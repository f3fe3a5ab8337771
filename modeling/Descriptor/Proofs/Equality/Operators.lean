import Descriptor.Proofs.Equality

/-!
# How the three equalities are related

Strict equality is the finest of them.  On values of one form it is the same as loose equality,
which only adds that some values of different forms are equal, and structural equality adds that
different containers may be.  Truth values have no part of their own in the loose one: they count
as the numbers one and zero.
-/

namespace Descriptor

/-! ## Forms of values -/

/-- The forms that a value can have. -/
inductive Variant where
  | null | undefined | bool | number | string | array | object
  deriving Repr, DecidableEq

/-- The form of the values that refer to a container. -/
def Container.variant : Container → Variant
  | .array _ => .array
  | .object _ => .object

/-- The form of a value.  A location without container has none. -/
def Heap.variant? (heap : Heap) : Value → Option Variant
  | .null => some .null
  | .undefined => some .undefined
  | .bool _ => some .bool
  | .number _ => some .number
  | .string _ => some .string
  | .container location => (heap.get? location).map Container.variant

/-- The form of a container is that of no scalar. -/
theorem Heap.variant?_container_ne (heap : Heap) (location : Location) {scalar : Variant}
    (isScalar : scalar ≠ .array ∧ scalar ≠ .object) :
    heap.variant? (.container location) ≠ some scalar := by
  intro same
  rcases Option.map_eq_some_iff.mp same with ⟨container, -, rfl⟩
  cases container with
  | array => exact isScalar.1 rfl
  | object => exact isScalar.2 rfl

/-! ## Strict and loose equality -/

theorem Binary64.beq_comm (left right : Float) : (left == right) = (right == left) :=
  Bool.eq_iff_iff.mpr ⟨beq_symm, beq_symm⟩

namespace Value

theorem strictEquals_comm (left right : Value) :
    left.strictEquals right = right.strictEquals left :=
  Bool.eq_iff_iff.mpr ⟨strictEquals_symm, strictEquals_symm⟩

theorem looseEquals_comm (left right : Value) :
    left.looseEquals right = right.looseEquals left := by
  cases left <;> cases right <;> simp only [looseEquals, looseEqualsNumber, Bool.beq_comm]
  case number.number => exact Binary64.beq_comm _ _

theorem looseEquals_of_strictEquals {left right : Value}
    (equal : left.strictEquals right = true) : left.looseEquals right = true := by
  cases left <;> cases right <;> first | exact equal | contradiction

theorem numberOfBool_eq (truth : Bool) : numberOfBool truth = if truth then 1 else 0 := by
  cases truth <;> decide +kernel

/-- A truth value counts as its number, beside another truth value as well. -/
theorem looseEquals_bool (truth : Bool) (other : Value) :
    (Value.bool truth).looseEquals other =
      (Value.number (numberOfBool truth)).looseEquals other := by
  cases other with
  | bool other => cases truth <;> cases other <;> decide +kernel
  | _ => rfl

end Value

namespace Heap

variable (heap : Heap)

/-- Values of one form are loosely equal exactly if they are strictly equal. -/
theorem looseEquals_of_variant {left right : Value}
    (same : heap.variant? left = heap.variant? right) :
    left.looseEquals right = left.strictEquals right := by
  cases left with
  | container location =>
      cases right with
      | container => rfl
      | _ => exact absurd same (heap.variant?_container_ne location (by decide))
  | _ =>
      cases right with
      | container location =>
          exact absurd same.symm (heap.variant?_container_ne location (by decide))
      | _ => first | rfl | simp [variant?] at same

theorem equal_of_strictEquals {left right : Value} (equal : left.strictEquals right = true) :
    heap.equal left right = true := by
  by_cases containers : ∃ location location',
      left = .container location ∧ right = .container location'
  · rcases containers with ⟨location, location', rfl, rfl⟩
    obtain rfl : location = location' := beq_iff_eq.mp equal
    rw [Heap.equal, equalWithin, beq_self_eq_true, if_pos rfl]
  · rwa [Heap.equal, equalWithin_of_scalar containers]

end Heap

/-- Strict equality implies loose and structural equality, and on values of one form the strict and
the loose one are the same.  Both are symmetric, the strict one is transitive, and under the loose
one a truth value compares with any other value as one or zero does. -/
theorem equalities_related (heap : Heap) (first second third : Value) :
    (first.strictEquals second = true →
      first.looseEquals second = true ∧ heap.equal first second = true) ∧
    (heap.variant? first = heap.variant? second →
      first.looseEquals second = first.strictEquals second) ∧
    first.looseEquals second = second.looseEquals first ∧
    first.strictEquals second = second.strictEquals first ∧
    (first.strictEquals second = true → second.strictEquals third = true →
      first.strictEquals third = true) ∧
    ∀ truth : Bool,
      (Value.bool truth).looseEquals first =
          (Value.number (if truth then 1 else 0)).looseEquals first ∧
        first.looseEquals (.bool truth) = first.looseEquals (.number (if truth then 1 else 0)) := by
  refine ⟨fun equal => ⟨Value.looseEquals_of_strictEquals equal, heap.equal_of_strictEquals equal⟩,
    heap.looseEquals_of_variant, first.looseEquals_comm second, first.strictEquals_comm second,
    Value.strictEquals_trans, fun truth => ?_⟩
  have asNumber := Value.looseEquals_bool truth first
  rw [Value.numberOfBool_eq] at asNumber
  refine ⟨asNumber, ?_⟩
  rw [first.looseEquals_comm, first.looseEquals_comm]
  exact asNumber

end Descriptor
