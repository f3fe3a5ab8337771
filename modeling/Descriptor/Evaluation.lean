import Descriptor.Property
import Descriptor.Scope
import Descriptor.Stmt
import Descriptor.Value.Operation

/-!
# Evaluation

Statements and expressions are evaluated against a heap and a scope.  Every statement has a value,
and a list of statements has the value of its last one.  A fault does not end the evaluation: it is
noted, and the operation that met it gives `undefined` or leaves things as they are.
-/

namespace Descriptor

/-- What evaluation reads and changes: the containers, the variables, and the errors so far. -/
structure State where
  heap : Heap
  scope : Scope
  errors : Array RuntimeError

/-- The state with one more error. -/
def State.report (state : State) (token : Token) (fault : RuntimeFault) : State :=
  { state with errors := state.errors.push ⟨token, fault⟩ }

/-- A computation that reads and changes the state. -/
abbrev Run := StateM State

/-! ## Single operations -/

namespace Run

/-- The variable that a token names.  A missing one counts as one of the innermost frame. -/
def read (name : Token) : Run Binding := fun state =>
  match state.scope.lookup? name.lexeme with
  | some binding => (binding, state)
  | none =>
      (⟨.undefined, state.scope.isReadonly⟩,
        state.report name (.undefinedVariable name.lexeme))

/-- Assigns to the variable that a token names, and gives the value it has then. -/
def assign (name : Token) (value : Value) : Run Value := fun state =>
  match state.scope.assign name.lexeme value with
  | .done scope => (value, { state with scope := scope })
  | .refused current => (current, state.report name (.readonly name.lexeme))
  | .unbound => (.undefined, state.report name (.undefinedVariable name.lexeme))

/-- Defines a variable in the innermost frame. -/
def define (name : String) (value : Value) : Run Unit := fun state =>
  ((), { state with scope := state.scope.define name value })

/-- A new container. -/
def alloc (container : Container) : Run Value := fun state =>
  let allocated := state.heap.alloc container
  (allocated.1, { state with heap := allocated.2 })

/-- The heap. -/
def heap : Run Heap := fun state => (state.heap, state)

/-- The property of a value.  The token is that of the access. -/
def property (token : Token) (object : Value) (key : Key) : Run Value := fun state =>
  match state.heap.property? object key with
  | some value => (value, state)
  | none => (.undefined, state.report token .propertyDoesNotExist)

/-- Writes a property, if it was not reached through a readonly frame, and gives what was written.
A write that is refused gives the property as it is. -/
def setProperty (token : Token) (object : Binding) (key : Key) (value : Value) : Run Value :=
  fun state =>
    if object.readonly then
      ((state.heap.property? object.value key).getD .undefined,
        state.report token .readonlyUpdate)
    else
      match state.heap.setProperty object.value key value with
      | .ok heap => (value, { state with heap := heap })
      | .error fault => (.undefined, state.report token fault)

/-- Runs `body` with a new innermost frame, which is dropped again. -/
def inNewFrame {α : Type} (body : Run α) : Run α := fun state =>
  let ran := body { state with scope := .ofList false [] :: state.scope }
  (ran.1, { ran.2 with scope := ran.2.scope.tail })

end Run

/-! ## Expressions -/

/-- What an expression is evaluated for: its value, or as the place of a write.  Only a place has
to know whether it was reached through a readonly frame. -/
inductive Purpose where
  | value
  | place
  deriving DecidableEq

mutual

/-- Evaluates an expression.  The result is marked readonly if it is a place reached by accesses
from a variable of a readonly frame. -/
def Expr.run (purpose : Purpose) : Expr → Run Binding
  | .literal literal => return ⟨literal.toValue, false⟩
  | .variable name => do
      let binding ← Run.read name
      return ⟨binding.value, purpose == .place && binding.readonly⟩
  | .group inner => inner.run purpose
  | .array elements => do
      let values ← runElements elements
      return ⟨← Run.alloc (.array values), false⟩
  | .object properties => do
      let entries ← runProperties properties
      return ⟨← Run.alloc (.object (.ofList entries)), false⟩
  | .unary operator _ right => do
      let right ← right.run .value
      return ⟨operator.apply (← Run.heap) right.value, false⟩
  | .binary left operator _ right => do
      let left ← left.run .value
      if operator.isDecidedBy left.value then return ⟨left.value, false⟩
      else
        let right ← right.run .value
        return ⟨operator.apply (← Run.heap) left.value right.value, false⟩
  | .get object accessor => do
      let object ← object.run purpose
      let key ← accessor.runKey
      return ⟨← Run.property accessor.token object.value key, object.readonly⟩
  | .assign target value => do
      let value ← value.run .value
      return ⟨← Run.assign target value.value, false⟩
  | .set object accessor value => do
      let object ← object.run .place
      let key ← accessor.runKey
      let value ← value.run .value
      return ⟨← Run.setProperty accessor.token object key value.value, false⟩

/-- Evaluates the key of an access. -/
def Accessor.runKey : Accessor → Run Key
  | .field name => return .named name.lexeme
  | .element _ index => return .indexed (← index.run .value).value

/-- Evaluates the elements of an array in order. -/
def runElements : List Expr → Run (List Value)
  | [] => return []
  | element :: elements => do
      let value ← element.run .value
      return value.value :: (← runElements elements)

/-- Evaluates the properties of an object in order. -/
def runProperties : List (Token × Expr) → Run (List (String × Value))
  | [] => return []
  | (name, expression) :: properties => do
      let value ← expression.run .value
      return (name.lexeme, value.value) :: (← runProperties properties)

end

/-- The value of an expression. -/
def Expr.evaluate (expression : Expr) : Run Value :=
  return (← expression.run .value).value

/-- The value of an expression as the place of a write, with its mark. -/
def Expr.evaluatePlace (expression : Expr) : Run Binding :=
  expression.run .place

/-! ## Statements -/

mutual

/-- The value of a statement. -/
def Stmt.run : Stmt → Run Value
  | .block body => Run.inNewFrame (runFrom .undefined body)
  | .expression expression => expression.evaluate
  | .branch condition positive negative => do
      if (← condition.evaluate).toBool then positive.run
      else
        match negative with
        | some negative => negative.run
        | none => return .undefined
  | .choice condition positive negative => do
      if (← condition.evaluate).toBool then positive.evaluate
      else
        match negative with
        | some negative => negative.evaluate
        | none => return .undefined
  | .declaration name initializer => do
      let value ← match initializer with
        | some initializer => initializer.evaluate
        | none => pure .undefined
      Run.define name.lexeme value
      return value

/-- The value of the last of some statements, or `last` if there is none. -/
def runFrom (last : Value) : List Stmt → Run Value
  | [] => return last
  | statement :: body => do runFrom (← statement.run) body

end

/-- The value of a program, which has a frame of its own. -/
def evaluate (program : List Stmt) : Run Value :=
  Run.inNewFrame (runFrom .undefined program)

end Descriptor
