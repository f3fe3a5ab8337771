import Descriptor.Grammar.Statement

/-!
# Reading with a cursor

The grammar once more, read by a machine that moves a cursor over an array of tokens.  It looks
every token up by its index, counts the open blocks and the open levels up and down, and reports
an error where it finds it.  Nothing in its types says that the index is in range, that a loop
ends, or that a counter is taken back: a machine that looks behind the last token halts, and so
does one whose loop takes more turns, or whose rules call each other more often, than it was
given.

Besides, the machine keeps a record of the declarations that were tried, which no rule reads.
-/

namespace Descriptor.Cursor

/-- A declaration that was tried: the indices of the token it began with and of the one behind it,
and why it was dropped, if it was. -/
structure Attempt where
  start : Nat
  stop : Nat
  error? : Option CompileError
  deriving DecidableEq

/-- What changes while a machine runs. -/
structure Registers where
  /-- The index of the next token. -/
  current : Nat := 0
  /-- How many blocks are open. -/
  depth : Nat := 0
  /-- How many statements and expressions are open inside each other. -/
  nesting : Nat := 0
  /-- The errors that were reported. -/
  errors : List CompileError := []
  /-- The declarations that were tried, in the order in which they ended. -/
  attempts : List Attempt := []
  deriving DecidableEq

namespace Registers

/-- One more error has been reported. -/
def report (registers : Registers) (error : CompileError) : Registers :=
  { registers with errors := registers.errors ++ [error] }

/-- One more level is open. -/
def enter (registers : Registers) : Registers :=
  { registers with nesting := registers.nesting + 1 }

/-- One level less is open. -/
def leave (registers : Registers) : Registers :=
  { registers with nesting := registers.nesting - 1 }

/-- One more block is open. -/
def enterBlock (registers : Registers) : Registers :=
  { registers with depth := registers.depth + 1 }

/-- One block less is open. -/
def leaveBlock (registers : Registers) : Registers :=
  { registers with depth := registers.depth - 1 }

end Registers

/-- Why a machine halts before it is done. -/
inductive Halt where
  /-- There is no token at the index. -/
  | outOfBounds
  /-- A loop has had all its turns. -/
  | outOfTurns
  /-- The rules have called each other too often. -/
  | outOfCalls
  deriving DecidableEq

/-- What does not change while a machine runs: the tokens, and how many turns a loop has. -/
structure Input where
  tokens : Array Token
  turns : Nat

/-- How a run ends.  If the machine does not halt, a rule gives a value or fails with an error that
it has reported. -/
abbrev Outcome (α : Type) := Except Halt (Except CompileError α × Registers)

/-- A rule of the machine. -/
structure Machine (α : Type) where
  run : Input → Registers → Outcome α

variable {α β : Type}

/-! ## One rule after another -/

namespace Machine

/-- Gives a value and changes nothing. -/
protected def pure (a : α) : Machine α where
  run _ registers := .ok (.ok a, registers)

/-- Runs one rule and then, if it does not fail, the one that its value leads to. -/
protected def bind (machine : Machine α) (next : α → Machine β) : Machine β where
  run input registers :=
    match machine.run input registers with
    | .ok (.ok a, registers) => (next a).run input registers
    | .ok (.error error, registers) => .ok (.error error, registers)
    | .error halt => .error halt

instance : Monad Machine where
  pure := Machine.pure
  bind := Machine.bind

@[simp]
theorem run_pure (a : α) (input : Input) (registers : Registers) :
    (pure a : Machine α).run input registers = .ok (.ok a, registers) :=
  rfl

@[simp]
theorem run_bind (machine : Machine α) (next : α → Machine β) (input : Input)
    (registers : Registers) :
    (machine >>= next).run input registers =
      match machine.run input registers with
      | .ok (.ok a, registers) => (next a).run input registers
      | .ok (.error error, registers) => .ok (.error error, registers)
      | .error halt => .error halt :=
  rfl

end Machine

/-- Halts. -/
def halt (why : Halt) : Machine α where
  run _ _ := .error why

/-- The registers as they are. -/
def registers : Machine Registers where
  run _ registers := .ok (.ok registers, registers)

/-- Changes the registers. -/
def modify (change : Registers → Registers) : Machine Unit where
  run _ registers := .ok (.ok (), change registers)

/-- Gives the value of a result or fails with its error. -/
def ofResult (result : Except CompileError α) : Machine α where
  run _ registers := .ok (result, registers)

/-- Runs a rule and gives its result, which may be an error. -/
def catching (rule : Machine α) : Machine (Except CompileError α) where
  run input registers :=
    match rule.run input registers with
    | .ok (result, registers) => .ok (.ok result, registers)
    | .error halt => .error halt

/-- The token at an index. -/
def tokenAt (index : Nat) : Machine Token where
  run input registers :=
    match input.tokens[index]? with
    | some token => .ok (.ok token, registers)
    | none => .error .outOfBounds

/-- Repeats a rule until it gives a value to leave with, at most for the given number of turns. -/
def loopFrom (body : α → Machine (α ⊕ β)) : (turns : Nat) → α → Machine β
  | 0, _ => halt .outOfTurns
  | turns + 1, a => do
      match ← body a with
      | .inl a => loopFrom body turns a
      | .inr b => return b

/-- Repeats a rule until it gives a value to leave with. -/
def loop (body : α → Machine (α ⊕ β)) (a : α) : Machine β where
  run input registers := (loopFrom body input.turns a).run input registers

/-! ## Single tokens -/

/-- The next token. -/
def peek : Machine Token := do
  tokenAt (← registers).current

/-- Whether the next token is of the given kind. -/
def check (kind : Kind) : Machine Bool := do
  return (← peek).kind == kind

/-- Whether the next token is the end of the text. -/
def isAtEnd : Machine Bool := do
  return (← peek).isEnd

/-- Moves the cursor. -/
def moveTo (index : Nat) : Machine Unit :=
  modify fun registers => { registers with current := index }

/-- Moves the cursor behind the next token, whatever it is. -/
def moveOn : Machine Unit := do
  moveTo ((← registers).current + 1)

/-- Reads the next token.  The end of the text is given, but stays where it is. -/
def advance : Machine Token := do
  let token ← peek
  if ← isAtEnd then return token
  else
    moveOn
    return token

/-- Reports an error at a token, and fails with it. -/
def failAt (fault : ParseFault) (token : Token) : Machine α := do
  let error : CompileError := ⟨token.line, .parse fault, token.lexeme⟩
  modify (·.report error)
  ofResult (.error error)

/-- Reports an error at the next token, and fails with it. -/
def failAtPeek (fault : ParseFault) : Machine α := do
  failAt fault (← peek)

/-- Moves behind the next token if it is of the given kind. -/
def accept (kind : Kind) : Machine Bool := do
  if ← check kind then
    if ← isAtEnd then return false
    else
      moveOn
      return true
  else return false

/-- Reads the next token, which has to be of the given kind. -/
def consume (kind : Kind) (fault : ParseFault) : Machine Token := do
  if ← check kind then advance
  else failAtPeek fault

/-- Moves behind a separator, or leaves the loop at another token. -/
def skipSeparator : Unit → Machine (Unit ⊕ Unit) := fun _ => do
  if ← check .separator then
    moveOn
    return .inl ()
  else return .inr ()

/-- Moves behind all separators up to the next other token. -/
def skipSeparators : Machine Unit :=
  loop skipSeparator ()

/-- Looks behind a separator, or leaves the loop at another token. -/
def lookAhead (ahead : Nat) : Machine (Nat ⊕ Nat) := do
  if (← tokenAt ahead).isSeparator then return .inl (ahead + 1)
  else return .inr ahead

/-- Moves behind an `else`, which may stand some lines below. -/
def acceptElse : Machine Bool := do
  let ahead ← loop lookAhead (← registers).current
  if (← tokenAt ahead).kind == .keyword .elseWord then
    moveTo (ahead + 1)
    return true
  else return false

/-! ## Levels -/

/-- Runs a rule one level deeper, and fails if no level is left. -/
def nested (rule : Machine α) : Machine α := do
  if nestingLimit ≤ (← registers).nesting then failAtPeek .tooDeeplyNested
  else
    modify Registers.enter
    let result ← catching rule
    modify Registers.leave
    ofResult result

/-- The rules that open a level. -/
structure Rules where
  statement : Machine Stmt
  expression : Machine Expr
  unary : Machine Expr

variable (rules : Rules)

/-! ## Expressions -/

/-- `( expression )`, behind the opening sign. -/
def parenthesized : Machine Expr := do
  let expression ← rules.expression
  let _ ← consume (.sign .rightParen) .unterminatedParenthesis
  return .group expression

/-- Reads one item more, which says whether another one may follow. -/
def itemRound (item : Machine (α × Bool)) (closing : Kind) (read : List α) :
    Machine (List α ⊕ List α) := do
  if (← check closing) || (← isAtEnd) then return .inr read
  else
    let (a, more) ← item
    if more then return .inl (read ++ [a])
    else return .inr (read ++ [a])

/-- Reads items up to a token of the closing kind, which is not read, or to the end. -/
def items (item : Machine (α × Bool)) (closing : Kind) : Machine (List α) :=
  loop (itemRound item closing) []

/-- An array element, the separators behind it and a comma. -/
def arrayElement : Machine (Expr × Bool) := do
  let element ← rules.expression
  skipSeparators
  if ← accept (.sign .comma) then
    skipSeparators
    return (element, true)
  else return (element, false)

/-- `[ expression , ... ]`, behind the opening sign. -/
def array : Machine Expr := do
  skipSeparators
  let elements ← items (arrayElement rules) (.sign .rightBracket)
  let _ ← consume (.sign .rightBracket) .unterminatedArray
  return .array elements

/-- A property, the separators behind it and a comma, which may be missing before `}`. -/
def objectProperty : Machine ((Token × Expr) × Bool) := do
  let name ← consume .identifier .expectedObjectKey
  let _ ← consume (.sign .colon) .expectedObjectColon
  let value ← rules.expression
  skipSeparators
  if ← check (.sign .rightBrace) then return ((name, value), true)
  else
    let _ ← consume (.sign .comma) .expectedObjectComma
    skipSeparators
    return ((name, value), true)

/-- `%{ name : expression , ... }`, behind the percent sign. -/
def object : Machine Expr := do
  let _ ← consume (.sign .leftBrace) .expectedObjectBrace
  skipSeparators
  let properties ← items (objectProperty rules) (.sign .rightBrace)
  let _ ← consume (.sign .rightBrace) .unterminatedObject
  return .object properties

/-- Reads the next token if `select` says how to go on behind it, and otherwise leaves it to
another rule. -/
def byToken (select : Token → Option (Machine α)) (otherwise : Machine α) : Machine α := do
  match select (← peek) with
  | some next => do
      let _ ← advance
      next
  | none => otherwise

/-- An expression that a single token is. -/
def leaf : Machine Expr :=
  byToken (fun token => (Expr.leaf? token).map pure) (failAtPeek .expectedExpression)

/-- A single token, or an expression, array or object in its brackets. -/
def primary : Machine Expr := do
  if ← accept (.sign .leftParen) then parenthesized rules
  else if ← accept (.sign .leftBracket) then array rules
  else if ← accept (.sign .percent) then object rules
  else leaf

/-- Goes on from `a` once if `select` says how to go on behind the next token. -/
def extendRound (select : Token → Option (α → Machine α)) (a : α) : Machine (α ⊕ α) := do
  match select (← peek) with
  | some next => do
      let _ ← advance
      let b ← next a
      return .inl b
  | none => return .inr a

/-- Goes on from `a` as long as `select` says how to go on behind the next token. -/
def extend (select : Token → Option (α → Machine α)) (a : α) : Machine α :=
  loop (extendRound select) a

/-- One access step of `object`, behind its first token. -/
def access? (token : Token) : Option (Expr → Machine Expr) :=
  match token.kind with
  | .sign .dot => some fun object => do
      let name ← consume .identifier .expectedPropertyName
      return .get object (.field name)
  | .sign .leftBracket => some fun object => do
      let index ← rules.expression
      let _ ← consume (.sign .rightBracket) .unterminatedIndex
      return .get object (.element token index)
  | _ => none

/-- `primary` with any number of `.name` and `[expression]` behind it. -/
def accesses : Machine Expr := do
  extend (access? rules) (← primary rules)

/-- Any number of unary operators and what they are applied to. -/
def unary : Machine Expr :=
  byToken
    (fun token =>
      (UnaryOperator.ofKind? token.kind).map fun operator => do
        let right ← rules.unary
        return .unary operator token right)
    (accesses rules)

/-- The operators of a level. -/
def operators : Level → List BinaryOperator
  | .or => [.or]
  | .and => [.and]
  | .equality => [.looseNotEqual, .strictNotEqual, .looseEqual, .strictEqual]
  | .comparison => [.greater, .greaterEqual, .less, .lessEqual]
  | .term => [.subtract, .add]
  | .factor => [.divide, .multiply]

/-- An operator that is accepted and its right operand. -/
def rightOperand? (accepted : List BinaryOperator) (operand : Machine Expr) (token : Token) :
    Option (Expr → Machine Expr) :=
  ((BinaryOperator.ofKind? token.kind).filter (· ∈ accepted)).map fun operator left => do
    let right ← operand
    return .binary left operator token right

/-- Operands joined by operators of the given levels, the loosest first. -/
def binary : List Level → Machine Expr
  | [] => unary rules
  | level :: tighter => do
      extend (rightOperand? (operators level) (binary tighter)) (← binary tighter)

/-- An operand, or an assignment to it.  What cannot be assigned to is reported at the sign, once
the value has been read. -/
def assignment : Machine Expr := do
  let target ← binary rules Level.all
  if ← check (.sign .equal) then
    let equals ← advance
    let value ← rules.expression
    match Grammar.assignment? target value with
    | some expression => return expression
    | none => failAt .invalidAssignmentTarget equals
  else return target

/-! ## Statements -/

/-- Reads the separator behind a statement.  It may be missing before `}`, before `else` and at
the end of the text. -/
def endStatement (ending : Ending) : Machine Unit := do
  if ← accept .separator then return
  else if (← check (.sign .rightBrace)) || (← check (.keyword .elseWord)) || (← isAtEnd) then
    return
  else failAtPeek (.expectedSeparator ending)

/-- `expression` as a statement. -/
def expressionStatement : Machine Stmt := do
  let value ← rules.expression
  endStatement .expression
  return .expression value

/-- `let name = expression`, behind `let`. -/
def letDeclaration : Machine Stmt := do
  let name ← consume .identifier .expectedVariableName
  if ← accept (.sign .equal) then
    let initializer ← rules.expression
    endStatement .declaration
    return .declaration name (some initializer)
  else
    endStatement .declaration
    return .declaration name none

/-- `if condition, do: expression, else: expression`, behind `if`. -/
def choice : Machine Stmt := do
  let condition ← rules.expression
  let _ ← consume (.sign .comma) .expectedConditionComma
  let _ ← consume (.keyword .doWord) .expectedDo
  let _ ← consume (.sign .colon) .expectedDoColon
  let positive ← rules.expression
  if ← accept (.sign .comma) then
    let _ ← consume (.keyword .elseWord) .expectedElse
    let _ ← consume (.sign .colon) .expectedElseColon
    let negative ← rules.expression
    endStatement .conditional
    return .choice condition positive (some negative)
  else
    endStatement .conditional
    return .choice condition positive none

/-- `( expression )` as the condition of a branch, and the separators behind it. -/
def branchCondition : Machine Expr := do
  let _ ← consume (.sign .leftParen) .expectedExpression
  let condition ← rules.expression
  let _ ← consume (.sign .rightParen) .unterminatedCondition
  skipSeparators
  return condition

/-- `if (expression) statement else statement`, behind `if`. -/
def branch : Machine Stmt := do
  let condition ← branchCondition rules
  let positive ← rules.statement
  if ← acceptElse then
    skipSeparators
    let negative ← rules.statement
    return .branch condition positive (some negative)
  else return .branch condition positive none

/-- Either form of `if`.  A parenthesis behind it begins a branch. -/
def conditional : Machine Stmt := do
  if ← check (.sign .leftParen) then branch rules
  else choice rules

/-- Skips one token more, unless what was skipped last, or what comes next, ends the line. -/
def skipRound (skipped : Token) : Machine (Token ⊕ Unit) := do
  if skipped.isSeparator || skipped.isEnd || (← check (.sign .rightBrace)) then return .inr ()
  else return .inl (← advance)

/-- Skips at least one token, and then all up to a separator, which is skipped too, or up to a
closing brace, which is not. -/
def skipLine : Machine Unit := do
  loop skipRound (← advance)

/-- Skips the rest of a declaration that failed.  Inside a block a closing brace is left in place,
so that the block can end there. -/
def synchronize : Machine Unit := do
  let closes ← check (.sign .rightBrace)
  if 0 < (← registers).depth && closes then skipSeparators
  else
    skipLine
    skipSeparators

/-- A `let` or a statement. -/
def letOrStatement : Machine Stmt := do
  if ← accept (.keyword .letWord) then letDeclaration rules
  else rules.statement

/-- A `let` or a statement.  One that fails is dropped, and its error is the result. -/
def declaration : Machine (Except CompileError Stmt) := do
  match ← catching (letOrStatement rules) with
  | .ok statement => return .ok statement
  | .error error => do
      synchronize
      return .error error

/-- Puts the declaration that began at `start` and ends here on record. -/
def record (start : Nat) (error? : Option CompileError) : Machine Unit :=
  modify fun registers =>
    { registers with attempts := registers.attempts ++ [⟨start, registers.current, error?⟩] }

/-- Tries a declaration. -/
def attempt : Machine (Option Stmt) := do
  let start := (← registers).current
  match ← declaration rules with
  | .ok statement => do
      record start none
      return some statement
  | .error error => do
      record start (some error)
      return none

/-- Tries one declaration more, unless none is left. -/
def declarationRound (inBlock : Bool) (kept : List Stmt) : Machine (List Stmt ⊕ List Stmt) := do
  skipSeparators
  if (inBlock && (← check (.sign .rightBrace))) || (← isAtEnd) then return .inr kept
  else
    let statement? ← attempt rules
    return .inl (kept ++ statement?.toList)

/-- Tries declarations up to the end of the text or, inside a block, up to the brace that closes
it. -/
def declarations (inBlock : Bool) : Machine (List Stmt) :=
  loop (declarationRound rules inBlock) []

/-- The declarations of a block, up to the brace that closes it. -/
def blockBody : Machine (List Stmt) := do
  modify Registers.enterBlock
  let body ← declarations rules true
  modify Registers.leaveBlock
  return body

/-- `{ declarations }`, behind the opening brace. -/
def block : Machine Stmt := do
  let body ← blockBody rules
  let _ ← consume (.sign .rightBrace) .unterminatedBlock
  return .block body

/-- A statement, as soon as a level is open for it. -/
def statement : Machine Stmt := do
  if ← accept (.sign .leftBrace) then block rules
  else if ← accept (.keyword .ifWord) then conditional rules
  else expressionStatement rules

/-! ## Whole programs -/

/-- The rules that open a level, which may call each other the given number of times. -/
def rulesWithin : (calls : Nat) → Rules
  | 0 => ⟨halt .outOfCalls, halt .outOfCalls, halt .outOfCalls⟩
  | calls + 1 =>
      let inner := rulesWithin calls
      ⟨nested (statement inner), nested (assignment inner), nested (unary inner)⟩

/-- All declarations of a text. -/
def program : Machine (List Stmt) :=
  declarations rules false

/-- Tokens with an end of the text behind them.  If they end in one, they stay as they are. -/
def closed (tokens : List Token) : List Token :=
  if tokens.getLast?.any Token.isEnd then tokens
  else tokens ++ [⟨.endOfText, "", (tokens.getLast?.map Token.line).getD 1⟩]

end Descriptor.Cursor
