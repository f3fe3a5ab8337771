import Descriptor.Proofs.Grammar.Canonical

/-!
# Writing trees as tokens

Which tokens write a tree.  What a tree keeps of a token is written by that token, and the signs
and keywords of a node by any token of their kind.  Separators may stand around the items of an
array or object, behind the condition of a branch and around its `else`.  A comma may end the
items.  A `let`, an expression and a choice are ended by a separator, which may be missing before
`}`, before `else` and at the end.

What may stand between the statements of a list is a parameter: separators where nothing is
wrong, and anything at all where declarations were dropped.
-/

namespace Descriptor

/-- All tokens are separators. -/
def Separators (tokens : List Token) : Prop :=
  ∀ token ∈ tokens, token.isSeparator = true

/-- Items with a comma between them and separators around them, and perhaps a last comma. -/
inductive Items {α : Type} (Item : α → List Token → Prop) : List α → List Token → Prop where
  | nil : Items Item [] []
  | last {a : α} {used gap : List Token} (item : Item a used) (separators : Separators gap) :
      Items Item [a] (used ++ gap)
  | more {a : α} {rest : List α} {used gap behind others : List Token} {comma : Token}
      (item : Item a used) (separators : Separators gap) (isComma : comma.kind = .sign .comma)
      (separatorsBehind : Separators behind) (items : Items Item rest others) :
      Items Item (a :: rest) (used ++ (gap ++ comma :: (behind ++ others)))

/-! ## Expressions -/

mutual

/-- The tokens write the expression. -/
inductive Expr.Written : Expr → List Token → Prop where
  | literal {value : Literal} {token : Token}
      (leaf : Expr.leaf? token = some (.literal value)) : Expr.Written (.literal value) [token]
  | variable (name : Token) : Expr.Written (.variable name) [name]
  | group {inner : Expr} {opening closing : Token} {used : List Token}
      (opens : opening.kind = .sign .leftParen) (written : inner.Written used)
      (closes : closing.kind = .sign .rightParen) :
      Expr.Written (.group inner) (opening :: (used ++ [closing]))
  | array {elements : List Expr} {opening closing : Token} {gap used : List Token}
      (opens : opening.kind = .sign .leftBracket) (separators : Separators gap)
      (items : Items Expr.Written elements used) (closes : closing.kind = .sign .rightBracket) :
      Expr.Written (.array elements) (opening :: (gap ++ (used ++ [closing])))
  | object {properties : List (Token × Expr)} {percent opening closing : Token}
      {gap used : List Token} (isPercent : percent.kind = .sign .percent)
      (opens : opening.kind = .sign .leftBrace) (separators : Separators gap)
      (items : Items PropertyWritten properties used)
      (closes : closing.kind = .sign .rightBrace) :
      Expr.Written (.object properties) (percent :: opening :: (gap ++ (used ++ [closing])))
  | unary {operator : UnaryOperator} {token : Token} {right : Expr} {used : List Token}
      (written : right.Written used) : Expr.Written (.unary operator token right) (token :: used)
  | binary {left right : Expr} {operator : BinaryOperator} {token : Token}
      {leftUsed rightUsed : List Token} (leftWritten : left.Written leftUsed)
      (rightWritten : right.Written rightUsed) :
      Expr.Written (.binary left operator token right) (leftUsed ++ token :: rightUsed)
  | get {object : Expr} {accessor : Accessor} {used step : List Token}
      (written : object.Written used) (stepWritten : accessor.Written step) :
      Expr.Written (.get object accessor) (used ++ step)
  | assign {target equals : Token} {value : Expr} {used : List Token}
      (isEquals : equals.kind = .sign .equal) (written : value.Written used) :
      Expr.Written (.assign target value) (target :: equals :: used)
  | set {object value : Expr} {accessor : Accessor} {equals : Token}
      {used step valueUsed : List Token} (written : object.Written used)
      (stepWritten : accessor.Written step) (isEquals : equals.kind = .sign .equal)
      (valueWritten : value.Written valueUsed) :
      Expr.Written (.set object accessor value) (used ++ (step ++ equals :: valueUsed))

/-- The tokens write the access step. -/
inductive Accessor.Written : Accessor → List Token → Prop where
  | field {dot name : Token} (isDot : dot.kind = .sign .dot) :
      Accessor.Written (.field name) [dot, name]
  | element {bracket closing : Token} {index : Expr} {used : List Token}
      (written : index.Written used) (closes : closing.kind = .sign .rightBracket) :
      Accessor.Written (.element bracket index) (bracket :: (used ++ [closing]))

/-- The tokens write the property of an object literal. -/
inductive PropertyWritten : Token × Expr → List Token → Prop where
  | property {name colon : Token} {value : Expr} {used : List Token}
      (isColon : colon.kind = .sign .colon) (written : value.Written used) :
      PropertyWritten (name, value) (name :: colon :: used)

end

/-! ## Statements -/

/-- Whether a statement may end in front of these tokens without a separator. -/
def mayEnd (behind : List Token) : Bool :=
  behind.head?.all fun token =>
    Grammar.closesBlock token || token.kind == .keyword .elseWord

/-- Whether an `else` stands next, perhaps behind separators. -/
def elseFollows (tokens : List Token) : Bool :=
  (tokens.dropWhile Token.isSeparator).head?.any (·.kind == .keyword .elseWord)

/-- The tokens end a statement in front of `behind`. -/
inductive Terminated : List Token → List Token → Prop where
  | separator {token : Token} {behind : List Token} (separates : token.isSeparator = true) :
      Terminated [token] behind
  | omitted {behind : List Token} (ends : mayEnd behind = true) : Terminated [] behind

variable (Gap : List Token → Prop)

mutual

/-- The tokens write the statement in front of `behind`, with gaps in its blocks. -/
inductive Stmt.Written : Stmt → List Token → List Token → Prop where
  | block {body : List Stmt} {opening closing : Token} {used behind : List Token}
      (opens : opening.kind = .sign .leftBrace)
      (written : BodyWritten body used (closing :: behind))
      (closes : closing.kind = .sign .rightBrace) :
      Stmt.Written (.block body) (opening :: (used ++ [closing])) behind
  | expression {expression : Expr} {used terminator behind : List Token}
      (written : expression.Written used) (terminated : Terminated terminator behind) :
      Stmt.Written (.expression expression) (used ++ terminator) behind
  | branch {condition : Expr} {positive : Stmt} {ifToken opening closing : Token}
      {conditionUsed gap used behind : List Token} (isIf : ifToken.kind = .keyword .ifWord)
      (opens : opening.kind = .sign .leftParen) (conditionWritten : condition.Written conditionUsed)
      (closes : closing.kind = .sign .rightParen) (separators : Separators gap)
      (written : Stmt.Written positive used behind) :
      Stmt.Written (.branch condition positive none)
        (ifToken :: opening :: (conditionUsed ++ closing :: (gap ++ used))) behind
  | branchElse {condition : Expr} {positive negative : Stmt}
      {ifToken opening closing elseToken : Token}
      {conditionUsed gap used before after negativeUsed behind : List Token}
      (isIf : ifToken.kind = .keyword .ifWord) (opens : opening.kind = .sign .leftParen)
      (conditionWritten : condition.Written conditionUsed)
      (closes : closing.kind = .sign .rightParen) (separators : Separators gap)
      (written : Stmt.Written positive used
        (before ++ elseToken :: (after ++ (negativeUsed ++ behind))))
      (separatorsBefore : Separators before) (isElse : elseToken.kind = .keyword .elseWord)
      (separatorsAfter : Separators after)
      (negativeWritten : Stmt.Written negative negativeUsed behind) :
      Stmt.Written (.branch condition positive (some negative))
        (ifToken :: opening :: (conditionUsed ++ closing :: (gap ++ (used ++
          (before ++ elseToken :: (after ++ negativeUsed)))))) behind
  | choice {condition positive : Expr} {ifToken comma doToken colon : Token}
      {conditionUsed used terminator behind : List Token}
      (isIf : ifToken.kind = .keyword .ifWord) (conditionWritten : condition.Written conditionUsed)
      (isComma : comma.kind = .sign .comma) (isDo : doToken.kind = .keyword .doWord)
      (isColon : colon.kind = .sign .colon) (written : positive.Written used)
      (terminated : Terminated terminator behind) :
      Stmt.Written (.choice condition positive none)
        (ifToken :: (conditionUsed ++ comma :: doToken :: colon :: (used ++ terminator))) behind
  | choiceElse {condition positive negative : Expr}
      {ifToken comma doToken colon secondComma elseToken secondColon : Token}
      {conditionUsed used negativeUsed terminator behind : List Token}
      (isIf : ifToken.kind = .keyword .ifWord) (conditionWritten : condition.Written conditionUsed)
      (isComma : comma.kind = .sign .comma) (isDo : doToken.kind = .keyword .doWord)
      (isColon : colon.kind = .sign .colon) (written : positive.Written used)
      (isSecondComma : secondComma.kind = .sign .comma)
      (isElse : elseToken.kind = .keyword .elseWord)
      (isSecondColon : secondColon.kind = .sign .colon)
      (negativeWritten : negative.Written negativeUsed)
      (terminated : Terminated terminator behind) :
      Stmt.Written (.choice condition positive (some negative))
        (ifToken :: (conditionUsed ++ comma :: doToken :: colon :: (used ++
          secondComma :: elseToken :: secondColon :: (negativeUsed ++ terminator)))) behind
  | declaration {name letToken : Token} {terminator behind : List Token}
      (isLet : letToken.kind = .keyword .letWord) (terminated : Terminated terminator behind) :
      Stmt.Written (.declaration name none) (letToken :: name :: terminator) behind
  | initialized {name letToken equals : Token} {initializer : Expr}
      {used terminator behind : List Token} (isLet : letToken.kind = .keyword .letWord)
      (isEquals : equals.kind = .sign .equal) (written : initializer.Written used)
      (terminated : Terminated terminator behind) :
      Stmt.Written (.declaration name (some initializer))
        (letToken :: name :: equals :: (used ++ terminator)) behind

/-- The tokens write the statements in front of `behind`, with gaps around them. -/
inductive BodyWritten : List Stmt → List Token → List Token → Prop where
  | nil {gap behind : List Token} (between : Gap gap) : BodyWritten [] gap behind
  | cons {statement : Stmt} {body : List Stmt} {gap used others behind : List Token}
      (between : Gap gap) (written : Stmt.Written statement used (others ++ behind))
      (bodyWritten : BodyWritten body others behind) :
      BodyWritten (statement :: body) (gap ++ (used ++ others)) behind

end

end Descriptor
