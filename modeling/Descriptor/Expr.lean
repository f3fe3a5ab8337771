import Descriptor.Number.Numeral
import Descriptor.Token

/-!
# Expressions

The syntax trees of expressions, and the prefix notation in which they are shown: `(+ 1 2)`.
Operators and names keep their tokens, which the notation and the diagnostics refer to.
-/

namespace Descriptor

/-- Operators between two operands. -/
inductive BinaryOperator where
  | add | subtract | multiply | divide
  | greater | greaterEqual | less | lessEqual
  | looseEqual | looseNotEqual | strictEqual | strictNotEqual
  | and | or
  deriving Repr, DecidableEq

/-- Operators before one operand. -/
inductive UnaryOperator where
  | negate
  | not
  | convert (conversion : Conversion)
  deriving Repr, DecidableEq

mutual

/-- An expression. -/
inductive Expr where
  | literal (value : Literal)
  | variable (name : Token)
  | group (inner : Expr)
  | array (elements : List Expr)
  | object (properties : List (Token × Expr))
  | unary (operator : UnaryOperator) (token : Token) (right : Expr)
  | binary (left : Expr) (operator : BinaryOperator) (token : Token) (right : Expr)
  | get (object : Expr) (accessor : Accessor)
  | assign (target : Token) (value : Expr)
  | set (object : Expr) (accessor : Accessor) (value : Expr)

/-- The last step of a property access: `.name`, or `[index]` with the token of its bracket. -/
inductive Accessor where
  | field (name : Token)
  | element (bracket : Token) (index : Expr)

end

/-! ## Operators and their tokens -/

namespace BinaryOperator

/-- The operator that a token of this kind is between two operands. -/
def ofKind? : Kind → Option BinaryOperator
  | .sign .plus => some .add
  | .sign .minus => some .subtract
  | .sign .star => some .multiply
  | .sign .slash => some .divide
  | .sign .greater => some .greater
  | .sign .greaterEqual => some .greaterEqual
  | .sign .less => some .less
  | .sign .lessEqual => some .lessEqual
  | .sign .equalEqual => some .looseEqual
  | .sign .bangEqual => some .looseNotEqual
  | .sign .equalEqualEqual => some .strictEqual
  | .sign .bangEqualEqual => some .strictNotEqual
  | .keyword .and => some .and
  | .keyword .or => some .or
  | _ => none

/-- All operators between two operands, as diagnostics and tables list them. -/
def all : List BinaryOperator :=
  [.add, .subtract, .multiply, .divide, .greater, .greaterEqual, .less, .lessEqual,
   .looseEqual, .looseNotEqual, .strictEqual, .strictNotEqual, .and, .or]

theorem mem_all (operator : BinaryOperator) : operator ∈ all := by
  cases operator <;> decide

end BinaryOperator

namespace UnaryOperator

/-- The operator that a token of this kind is before an operand. -/
def ofKind? : Kind → Option UnaryOperator
  | .sign .minus => some .negate
  | .sign .bang => some .not
  | .keyword (.conversion which) => some (.convert which)
  | _ => none

end UnaryOperator

/-- The token that diagnostics about an access refer to. -/
def Accessor.token : Accessor → Token
  | .field name => name
  | .element bracket _ => bracket

/-! ## Prefix notation -/

/-- A literal as it is shown.  The text of a string stands between quotes as it is. -/
def Literal.print : Literal → String
  | .number value => Numeral.plain value
  | .string text => "\"" ++ text ++ "\""
  | .bool true => "true"
  | .bool false => "false"
  | .null => "null"
  | .undefined => "undefined"

mutual

/-- An expression in prefix notation, operators and names by their lexemes. -/
def Expr.print : Expr → String
  | .literal value => value.print
  | .variable name => name.lexeme
  | .group inner => "(group " ++ inner.print ++ ")"
  | .array elements => "(array" ++ printElements elements ++ ")"
  | .object properties => "(object" ++ printProperties properties ++ ")"
  | .unary _ token right => "(" ++ token.lexeme ++ " " ++ right.print ++ ")"
  | .binary left _ token right =>
      "(" ++ token.lexeme ++ " " ++ left.print ++ " " ++ right.print ++ ")"
  | .get object accessor => "(get " ++ object.print ++ accessor.print ++ ")"
  | .assign target value => "(= " ++ target.lexeme ++ " " ++ value.print ++ ")"
  | .set object accessor value =>
      "(set " ++ object.print ++ accessor.print ++ " " ++ value.print ++ ")"

/-- An access step as it is written. -/
def Accessor.print : Accessor → String
  | .field name => "." ++ name.lexeme
  | .element _ index => "[" ++ index.print ++ "]"

/-- Array elements, each with a space before it. -/
def printElements : List Expr → String
  | [] => ""
  | element :: elements => " " ++ element.print ++ printElements elements

/-- Object properties, each with a space before it. -/
def printProperties : List (Token × Expr) → String
  | [] => ""
  | (name, value) :: properties =>
      " " ++ name.lexeme ++ ":" ++ value.print ++ printProperties properties

end

end Descriptor
