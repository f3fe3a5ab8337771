import Descriptor.Expr
import Descriptor.Value.Equality

/-!
# Operators on values

Arithmetic and comparison are those of numbers.  `and` and `or` give one of their operands.
-/

namespace Descriptor

/-- The value of a literal. -/
def Literal.toValue : Literal → Value
  | .number value => .number value
  | .string text => .string text
  | .bool value => .bool value
  | .null => .null
  | .undefined => .undefined

/-- The result of an operator before an operand. -/
def UnaryOperator.apply (heap : Heap) (right : Value) : UnaryOperator → Value
  | .negate => .number (-right.toNumber heap)
  | .not => .bool !right.toBool
  | .convert .toText => .string (heap.text right)
  | .convert .toTruth => .bool right.toBool

namespace BinaryOperator

/-- The result of an operator between two operands. -/
def apply (heap : Heap) (left right : Value) : BinaryOperator → Value
  | .add => .number (left.toNumber heap + right.toNumber heap)
  | .subtract => .number (left.toNumber heap - right.toNumber heap)
  | .multiply => .number (left.toNumber heap * right.toNumber heap)
  | .divide => .number (left.toNumber heap / right.toNumber heap)
  | .greater => .bool (right.toNumber heap < left.toNumber heap)
  | .greaterEqual => .bool (right.toNumber heap ≤ left.toNumber heap)
  | .less => .bool (left.toNumber heap < right.toNumber heap)
  | .lessEqual => .bool (left.toNumber heap ≤ right.toNumber heap)
  | .looseEqual => .bool (left.looseEquals right)
  | .looseNotEqual => .bool !left.looseEquals right
  | .strictEqual => .bool (left.strictEquals right)
  | .strictNotEqual => .bool !left.strictEquals right
  | .and => if left.toBool then right else left
  | .or => if left.toBool then left else right

/-- Whether the left operand is the result, so that the right one is not evaluated. -/
def isDecidedBy (left : Value) : BinaryOperator → Bool
  | .and => !left.toBool
  | .or => left.toBool
  | _ => false

end BinaryOperator

end Descriptor
