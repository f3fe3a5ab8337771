import Descriptor.Proofs.PropertyWrite

/-!
# Places and values

The target of a write is evaluated for a place, everything else for its value.  Here these are two
recursions that need each other: a write goes over to the place of its target, and a place goes back
to values for the indexes on its way and for whatever is no variable and no access.

`Expr.run` goes through the syntax once for both of them, and is shown to give what they give.  A
place is then compared with the value of the same expression along the accesses and parentheses that
it consists of: `evaluatePlace_agrees`.
-/

namespace Descriptor

/-! ## Two recursions -/

mutual

/-- The value of an expression. -/
def Expr.valueOf : Expr → Run Value
  | .literal literal => return literal.toValue
  | .variable name => return (← Run.read name).value
  | .group inner => inner.valueOf
  | .array elements => do Run.alloc (.array (← valuesOfElements elements))
  | .object properties => do Run.alloc (.object (.ofList (← valuesOfProperties properties)))
  | .unary operator _ right => do
      let right ← right.valueOf
      return operator.apply (← Run.heap) right
  | .binary left operator _ right => do
      let left ← left.valueOf
      if operator.isDecidedBy left then return left
      else
        let right ← right.valueOf
        return operator.apply (← Run.heap) left right
  | .get object accessor => do
      let holder ← object.valueOf
      let key ← accessor.keyOf
      Run.property accessor.token holder key
  | .assign target value => do Run.assign target (← value.valueOf)
  | .set object accessor value => do
      let holder ← object.targetOf
      let key ← accessor.keyOf
      let value ← value.valueOf
      Run.setProperty accessor.token holder key value
termination_by expression => (sizeOf expression, 0)

/-- The value of an expression as the target of a write, with the mark of the variable that accesses
reach it from. -/
def Expr.targetOf : Expr → Run Binding
  | .variable name => Run.read name
  | .group inner => inner.targetOf
  | .get object accessor => do
      let holder ← object.targetOf
      let key ← accessor.keyOf
      return ⟨← Run.property accessor.token holder.value key, holder.readonly⟩
  -- The value of the same expression, hence the second component of the measures.
  | other => return ⟨← other.valueOf, false⟩
termination_by expression => (sizeOf expression, 1)

/-- The key of an access. -/
def Accessor.keyOf : Accessor → Run Key
  | .field name => return .named name.lexeme
  | .element _ index => return .indexed (← index.valueOf)
termination_by accessor => (sizeOf accessor, 0)

/-- The values of array elements, in order. -/
def valuesOfElements : List Expr → Run (List Value)
  | [] => return []
  | element :: elements => do
      let value ← element.valueOf
      return value :: (← valuesOfElements elements)
termination_by elements => (sizeOf elements, 0)

/-- The values of object properties under their names, in order. -/
def valuesOfProperties : List (Token × Expr) → Run (List (String × Value))
  | [] => return []
  | (name, expression) :: properties => do
      let value ← expression.valueOf
      return (name.lexeme, value) :: (← valuesOfProperties properties)
termination_by properties => (sizeOf properties, 0)

end

/-! ## Both are what runs -/

mutual

/-- Run for its value, an expression gives that value without a mark. -/
theorem Expr.run_value :
    ∀ expression : Expr, expression.run .value = do return ⟨← expression.valueOf, false⟩
  | .literal _ => by
      rw [Expr.run, Expr.valueOf, pure_bind]
  | .variable name => by
      rw [Expr.run, Expr.valueOf, bind_assoc]
      rfl
  | .group inner => by
      rw [Expr.run, Expr.valueOf, inner.run_value]
  | .array elements => by
      rw [Expr.run, Expr.valueOf, runElements_eq_valuesOf elements, bind_assoc]
  | .object properties => by
      rw [Expr.run, Expr.valueOf, runProperties_eq_valuesOf properties, bind_assoc]
  | .unary _ _ right => by
      simp only [Expr.run, Expr.valueOf, right.run_value, bind_assoc, pure_bind]
  | .binary left operator _ right => by
      simp only [Expr.run, Expr.valueOf, left.run_value, right.run_value, bind_assoc, pure_bind]
      congr
      funext value
      -- The right operand is evaluated only if the left one does not decide.
      split <;> simp only [bind_assoc, pure_bind]
  | .get object accessor => by
      simp only [Expr.run, Expr.valueOf, object.run_value, accessor.runKey_eq_keyOf, bind_assoc,
        pure_bind]
  | .assign _ value => by
      simp only [Expr.run, Expr.valueOf, value.run_value, bind_assoc, pure_bind]
  | .set object accessor value => by
      simp only [Expr.run, Expr.valueOf, object.run_place, accessor.runKey_eq_keyOf,
        value.run_value, bind_assoc, pure_bind]
termination_by expression => (sizeOf expression, 0)

/-- Run as a place, an expression gives the target with its mark. -/
theorem Expr.run_place : ∀ expression : Expr, expression.run .place = expression.targetOf
  | .variable _ => by
      rw [Expr.run, Expr.targetOf]
      rfl
  | .group inner => by
      rw [Expr.run, Expr.targetOf, inner.run_place]
  | .get object accessor => by
      rw [Expr.run, Expr.targetOf, object.run_place, accessor.runKey_eq_keyOf]
  | .literal _ | .array _ | .object _ | .unary _ _ _ | .binary _ _ _ _ | .assign _ _
  | .set _ _ _ => by
      -- The purpose makes no difference to these forms, none of them being an access.
      simp only [Expr.targetOf]
      rw [← Expr.run_value]
      rfl
termination_by expression => (sizeOf expression, 1)

theorem Accessor.runKey_eq_keyOf : ∀ accessor : Accessor, accessor.runKey = accessor.keyOf
  | .field _ => by rw [Accessor.runKey, Accessor.keyOf]
  | .element _ index => by
      simp only [Accessor.runKey, Accessor.keyOf, index.run_value, bind_assoc, pure_bind]
termination_by accessor => (sizeOf accessor, 0)

theorem runElements_eq_valuesOf :
    ∀ elements : List Expr, runElements elements = valuesOfElements elements
  | [] => by rw [runElements, valuesOfElements]
  | element :: elements => by
      simp only [runElements, valuesOfElements, element.run_value,
        runElements_eq_valuesOf elements, bind_assoc, pure_bind]
termination_by elements => (sizeOf elements, 0)

theorem runProperties_eq_valuesOf :
    ∀ properties : List (Token × Expr), runProperties properties = valuesOfProperties properties
  | [] => by rw [runProperties, valuesOfProperties]
  | (_, expression) :: properties => by
      simp only [runProperties, valuesOfProperties, expression.run_value,
        runProperties_eq_valuesOf properties, bind_assoc, pure_bind]
termination_by properties => (sizeOf properties, 0)

end

/-! ## The place agrees with the value -/

/-- Object, key and property are evaluated in the same order on both ways, so that each access finds
the same object in the same state. -/
theorem Expr.targetOf_agrees :
    ∀ (expression : Expr) (state : State),
      (expression.targetOf state).1.value = (expression.valueOf state).1 ∧
        (expression.targetOf state).2 = (expression.valueOf state).2
  | .variable _, state => by
      rw [targetOf, valueOf]
      exact ⟨rfl, rfl⟩
  | .group inner, state => by
      rw [targetOf, valueOf]
      exact inner.targetOf_agrees state
  | .get holder accessor, state => by
      rcases holder.targetOf_agrees state with ⟨sameValue, sameState⟩
      simp only [targetOf, valueOf, Run.run_bind, Run.run_pure, sameValue, sameState, and_self]
  | .literal _, state | .array _, state | .object _, state | .unary _ _ _, state
  | .binary _ _ _ _, state | .assign _ _, state | .set _ _ _, state => by
      simp only [targetOf]
      exact ⟨rfl, rfl⟩

/-- As the target of a write an expression does what it does for its value: from every state it has
the same value, reports the same errors in the same order, and leaves the same heap and the same
frames.  All that is added is the mark, which it has exactly if accesses and parentheses reach it
from a variable of a readonly frame.  A variable that no frame binds counts as one of the innermost
frame. -/
theorem evaluatePlace_agrees (expression : Expr) :
    expression.evaluate = expression.valueOf ∧
    expression.evaluatePlace = expression.targetOf ∧
    ∀ state : State,
      let valued := expression.evaluate state
      let placed := expression.evaluatePlace state
      placed.1.value = valued.1 ∧ placed.2.errors = valued.2.errors ∧
        placed.2.heap = valued.2.heap ∧ placed.2.scope = valued.2.scope ∧
        (placed.1.readonly = true ↔
          expression.ReachedThroughReadonly state.scope ∨
            (expression.ReachedThroughUnbound state.scope ∧ state.scope.isReadonly = true)) := by
  have isValue : expression.evaluate = expression.valueOf := by
    simp only [Expr.evaluate, expression.run_value, bind_assoc, pure_bind, bind_pure]
  have isPlace : expression.evaluatePlace = expression.targetOf := expression.run_place
  refine ⟨isValue, isPlace, fun state => ?_⟩
  intro valued placed
  have same : placed.1.value = valued.1 ∧ placed.2 = valued.2 := by
    simp only [placed, valued, isPlace, isValue]
    exact expression.targetOf_agrees state
  rcases same with ⟨sameValue, sameState⟩
  rw [sameState]
  exact ⟨sameValue, rfl, rfl, rfl, expression.readonly_run_place_iff state⟩

end Descriptor
