import Descriptor.Proofs.Grammar.Written

/-!
# First tokens

A canonical expression is written by at least one token, and the first one tells that an
expression begins.  It is an opening parenthesis just when the tree says so, and an operator only
if the expression holds together less tightly than an access.  The first token of a statement
tells which form it has.
-/

namespace Descriptor

/-- Whether an expression can begin with a token of this kind. -/
def Kind.opensExpression (kind : Kind) : Bool :=
  match kind with
  | .number _ | .string _ | .identifier => true
  | .keyword .true | .keyword .false | .keyword .null | .keyword .undefined => true
  | .sign .leftParen | .sign .leftBracket | .sign .percent => true
  | _ => (UnaryOperator.ofKind? kind).isSome

/-- The token begins the expression. -/
structure Expr.Opens (expression : Expr) (token : Token) : Prop where
  kind : token.kind.opensExpression = true
  parenthesis : expression.opensParenthesis = (token.kind == .sign .leftParen)
  operator : accessRank ≤ expression.rank → UnaryOperator.ofKind? token.kind = none

/-- A token that begins an expression is of no kind that cannot. -/
theorem Expr.Opens.kind_ne {expression : Expr} {token : Token} {kind : Kind}
    (opens : expression.Opens token) (other : kind.opensExpression = false) :
    token.kind ≠ kind := by
  rintro rfl
  exact Bool.eq_false_iff.mp other opens.kind

/-- A token that is a leaf begins it. -/
theorem Expr.Opens.of_leaf {token : Token} {leaf : Expr} (isLeaf : Expr.leaf? token = some leaf) :
    leaf.Opens token := by
  unfold Expr.leaf? at isLeaf
  split at isLeaf
  case h_8 => contradiction
  all_goals
    rename_i same
    cases isLeaf
    constructor
    · rw [same]
      rfl
    · rw [same]
      rfl
    · intro _
      rw [same]
      rfl

/-- A token that is a unary operator begins its application. -/
theorem Expr.Opens.of_unary {token : Token} {operator : UnaryOperator} {right : Expr}
    (isOperator : UnaryOperator.ofKind? token.kind = some operator) :
    Expr.Opens (.unary operator token right) token := by
  have parenthesis : (token.kind == .sign .leftParen) = false := by
    rw [beq_eq_false_iff_ne]
    intro same
    rw [same] at isOperator
    contradiction
  constructor
  · unfold Kind.opensExpression
    split
    case h_11 => rw [isOperator, Option.isSome_some]
    all_goals rfl
  · exact parenthesis.symm
  · intro tight
    exact absurd unaryRank_lt_accessRank (Nat.not_lt_of_le tight)

namespace Expr

/-- An expression begins with a token that says so. -/
theorem exists_opens :
    ∀ (expression : Expr) (used : List Token), expression.Written used → expression.Canonical →
      ∃ token rest, used = token :: rest ∧ expression.Opens token
  | .literal _, _, .literal leaf, _ => ⟨_, _, rfl, .of_leaf leaf⟩
  | .variable name, _, .variable _, isName =>
      ⟨_, _, rfl, .of_leaf (by unfold leaf?; rw [isName])⟩
  | .group _, _, .group opens _ _, _ =>
      ⟨_, _, rfl, by rw [opens]; rfl, by rw [opens]; rfl, fun _ => by rw [opens]; rfl⟩
  | .array _, _, .array opens _ _ _, _ =>
      ⟨_, _, rfl, by rw [opens]; rfl, by rw [opens]; rfl, fun _ => by rw [opens]; rfl⟩
  | .object _, _, .object opens _ _ _ _, _ =>
      ⟨_, _, rfl, by rw [opens]; rfl, by rw [opens]; rfl, fun _ => by rw [opens]; rfl⟩
  | .unary _ _ _, _, .unary _, canonical => ⟨_, _, rfl, .of_unary canonical.1⟩
  | .binary left operator _ _, _, .binary written _, canonical => by
      rcases left.exists_opens _ written canonical.2.2.2.1 with ⟨token, rest, rfl, opens⟩
      refine ⟨token, _, rfl, opens.kind, opens.parenthesis, fun tight => ?_⟩
      have loose := Nat.lt_trans operator.level.rank_lt_unaryRank unaryRank_lt_accessRank
      exact absurd loose (Nat.not_lt_of_le tight)
  | .get holder _, _, .get written _, canonical => by
      rcases holder.exists_opens _ written canonical.2.1 with ⟨token, rest, rfl, opens⟩
      exact ⟨token, _, rfl, opens.kind, opens.parenthesis, fun _ => opens.operator canonical.1⟩
  | .assign name _, _, .assign _ _, canonical =>
      have opens : Expr.Opens (.variable name) name := .of_leaf (by unfold leaf?; rw [canonical.1])
      ⟨_, _, rfl, opens.kind, opens.parenthesis, fun _ => opens.operator (Nat.le_refl _)⟩
  | .set holder _ _, _, .set written _ _ _, canonical => by
      rcases holder.exists_opens _ written canonical.2.1 with ⟨token, rest, rfl, opens⟩
      exact ⟨token, _, rfl, opens.kind, opens.parenthesis, fun _ => opens.operator canonical.1⟩

end Expr

/-- Whether a statement can begin with a token of this kind. -/
def Kind.opensStatement (kind : Kind) : Bool :=
  match kind with
  | .sign .leftBrace | .keyword .ifWord | .keyword .letWord => true
  | _ => kind.opensExpression

/-- A token that can begin an expression can begin a statement. -/
theorem Kind.opensStatement_of_opensExpression {kind : Kind} (opens : kind.opensExpression = true) :
    kind.opensStatement = true := by
  unfold opensStatement
  split
  case h_4 => exact opens
  all_goals rfl

/-- The token begins the statement. -/
structure Stmt.Opens (statement : Stmt) (token : Token) : Prop where
  kind : token.kind.opensStatement = true
  declaration : statement.isDeclaration = (token.kind == .keyword .letWord)

/-- A token that begins a statement is of no kind that cannot. -/
theorem Stmt.Opens.kind_ne {statement : Stmt} {token : Token} {kind : Kind}
    (opens : statement.Opens token) (other : kind.opensStatement = false) : token.kind ≠ kind := by
  rintro rfl
  exact Bool.eq_false_iff.mp other opens.kind

/-- A statement begins with a token that says so. -/
theorem Stmt.exists_opens {Gap : List Token → Prop} {statement : Stmt} {used behind : List Token}
    (written : statement.Written Gap used behind) (canonical : statement.Canonical) :
    ∃ token rest, used = token :: rest ∧ statement.Opens token := by
  cases written with
  | block opens _ _ => exact ⟨_, _, rfl, by rw [opens]; rfl, by rw [opens]; rfl⟩
  | @expression expression _ _ _ written _ =>
      rcases expression.exists_opens _ written canonical with ⟨token, rest, rfl, opens⟩
      refine ⟨token, _, rfl, Kind.opensStatement_of_opensExpression opens.kind, ?_⟩
      exact (beq_eq_false_iff_ne.mpr (opens.kind_ne rfl)).symm
  | branch isIf => exact ⟨_, _, rfl, by rw [isIf]; rfl, by rw [isIf]; rfl⟩
  | branchElse isIf => exact ⟨_, _, rfl, by rw [isIf]; rfl, by rw [isIf]; rfl⟩
  | choice isIf => exact ⟨_, _, rfl, by rw [isIf]; rfl, by rw [isIf]; rfl⟩
  | choiceElse isIf => exact ⟨_, _, rfl, by rw [isIf]; rfl, by rw [isIf]; rfl⟩
  | declaration isLet => exact ⟨_, _, rfl, by rw [isLet]; rfl, by rw [isLet]; rfl⟩
  | initialized isLet => exact ⟨_, _, rfl, by rw [isLet]; rfl, by rw [isLet]; rfl⟩

end Descriptor
