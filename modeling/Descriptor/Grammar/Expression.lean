import Descriptor.Expr
import Descriptor.Grammar.Step

/-!
# The grammar of expressions

From the loosest to the tightest: assignment, which groups to the right; the six levels of binary
operators, which group to the left; unary operators; property accesses; and single tokens or
brackets.

An expression in brackets, an operand of a unary operator and the right side of `=` lie one level
deeper than what they stand in.  `operands room` are the rules for them where `room` more levels
may be opened.
-/

namespace Descriptor

/-- The levels of binary operators. -/
inductive Level where
  | or | and | equality | comparison | term | factor
  deriving Repr, DecidableEq

/-- The levels from the loosest to the tightest. -/
def Level.all : List Level :=
  [.or, .and, .equality, .comparison, .term, .factor]

/-- The level an operator belongs to. -/
def BinaryOperator.level : BinaryOperator → Level
  | .or => .or
  | .and => .and
  | .looseEqual | .looseNotEqual | .strictEqual | .strictNotEqual => .equality
  | .greater | .greaterEqual | .less | .lessEqual => .comparison
  | .add | .subtract => .term
  | .multiply | .divide => .factor

/-- The expression that a single token is. -/
def Expr.leaf? (token : Token) : Option Expr :=
  match token.kind with
  | .number value => some (.literal (.number value))
  | .string text => some (.literal (.string text))
  | .keyword .true => some (.literal (.bool true))
  | .keyword .false => some (.literal (.bool false))
  | .keyword .null => some (.literal .null)
  | .keyword .undefined => some (.literal .undefined)
  | .identifier => some (.variable token)
  | _ => none

namespace Grammar

/-- The rules for what lies one level deeper. -/
structure Operands where
  expression : Rule Expr
  unary : Rule Expr

variable (inner : Operands)

/-! ## Brackets and single tokens -/

/-- `( expression )`, behind the opening sign. -/
def parenthesized : Step Expr := do
  let expression ← inner.expression.step
  let _ ← (Rule.expect (.sign .rightParen) .unterminatedParenthesis).step
  return .group expression

/-- An array element, the separators behind it and a comma. -/
def arrayElement : Rule (Expr × Bool) :=
  inner.expression.andThen fun element => do
    Step.skipSeparators
    match ← Step.accept? (.sign .comma) with
    | some _ =>
        Step.skipSeparators
        return (element, true)
    | none => return (element, false)

/-- `[ expression , ... ]`, behind the opening sign. -/
def array : Step Expr := do
  Step.skipSeparators
  let elements ← Step.items (arrayElement inner) (·.kind == .sign .rightBracket)
  let _ ← (Rule.expect (.sign .rightBracket) .unterminatedArray).step
  return .array elements

/-- A property, the separators behind it and a comma, which may be missing before `}`. -/
def objectProperty : Rule ((Token × Expr) × Bool) :=
  (Rule.expect .identifier .expectedObjectKey).andThen fun name => do
    let _ ← (Rule.expect (.sign .colon) .expectedObjectColon).step
    let value ← inner.expression.step
    Step.skipSeparators
    let next ← Step.next?
    if next.any (·.kind == .sign .rightBrace) then
      return ((name, value), true)
    else
      let _ ← (Rule.expect (.sign .comma) .expectedObjectComma).step
      Step.skipSeparators
      return ((name, value), true)

/-- `%{ name : expression , ... }`, behind the percent sign. -/
def object : Step Expr := do
  let _ ← (Rule.expect (.sign .leftBrace) .expectedObjectBrace).step
  Step.skipSeparators
  let properties ← Step.items (objectProperty inner) (·.kind == .sign .rightBrace)
  let _ ← (Rule.expect (.sign .rightBrace) .unterminatedObject).step
  return .object properties

/-- A single token, or an expression, array or object in its brackets. -/
def primary : Rule Expr :=
  Rule.byToken
    (fun token =>
      match token.kind with
      | .sign .leftParen => some (parenthesized inner)
      | .sign .leftBracket => some (array inner)
      | .sign .percent => some (object inner)
      | _ => (Expr.leaf? token).map pure)
    (Rule.fail .expectedExpression)

/-! ## Operators -/

/-- One access step of `object`, behind its first token. -/
def access? (token : Token) : Option (Expr → Step Expr) :=
  match token.kind with
  | .sign .dot => some fun object => do
      let name ← (Rule.expect .identifier .expectedPropertyName).step
      return .get object (.field name)
  | .sign .leftBracket => some fun object => do
      let index ← inner.expression.step
      let _ ← (Rule.expect (.sign .rightBracket) .unterminatedIndex).step
      return .get object (.element token index)
  | _ => none

/-- `primary` with any number of `.name` and `[expression]` behind it. -/
def accesses : Rule Expr :=
  (primary inner).andThen (Step.extend (access? inner))

/-- Any number of unary operators and what they are applied to. -/
def unary : Rule Expr :=
  Rule.byToken
    (fun token =>
      (UnaryOperator.ofKind? token.kind).map fun operator => do
        let right ← inner.unary.step
        return .unary operator token right)
    (accesses inner)

/-- An operator of the given level and its right operand, which is read by `tighter`. -/
def rightOperand? (level : Level) (tighter : Rule Expr) (token : Token) :
    Option (Expr → Step Expr) :=
  ((BinaryOperator.ofKind? token.kind).filter (·.level == level)).map fun operator left => do
    let right ← tighter.step
    return .binary left operator token right

/-- Operands joined by operators of the given levels, the loosest first. -/
def binary : List Level → Rule Expr
  | [] => unary inner
  | level :: tighter =>
      let operand := binary tighter
      operand.andThen (Step.extend (rightOperand? level operand))

/-- The expression that writes `value` to `target`, if `target` is a place. -/
def assignment? (target value : Expr) : Option Expr :=
  match target with
  | .variable name => some (.assign name value)
  | .get object accessor => some (.set object accessor value)
  | _ => none

/-- An operand, or an assignment to it. -/
def assignment : Rule Expr :=
  (binary inner Level.all).andThen fun target => do
    match ← Step.accept? (.sign .equal) with
    | none => return target
    | some equals =>
        let value ← inner.expression.step
        match assignment? target value with
        | some expression => return expression
        | none => Step.failAt .invalidAssignmentTarget equals

/-- The rules for what lies one level deeper, where `room` levels may be opened. -/
def operands : (room : Nat) → Operands
  | 0 => ⟨Rule.fail .tooDeeplyNested, Rule.fail .tooDeeplyNested⟩
  | room + 1 =>
      let inner := operands room
      ⟨assignment inner, unary inner⟩

/-- An expression, where `room` levels may be opened. -/
def expression (room : Nat) : Rule Expr :=
  (operands room).expression

end Grammar

end Descriptor
