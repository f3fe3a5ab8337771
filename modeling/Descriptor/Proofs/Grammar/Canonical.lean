import Descriptor.Grammar.Statement

/-!
# Canonical trees

The trees that the grammar can build.  Operands hold together at least as tightly as their place
asks for, so that no parentheses are missing.  The tokens in a tree are of the kinds their places
ask for, `let` stands only directly in a program or a block, and an `else` belongs to the nearest
`if` that can take it.

Apart from its form a tree has a depth: how many levels have to be open at a time to read it.
-/

namespace Descriptor

/-! ## How tightly expressions hold together -/

/-- The rank of a level of binary operators.  Assignments have the rank below all of them. -/
def Level.rank : Level → Nat
  | .or => 1
  | .and => 2
  | .equality => 3
  | .comparison => 4
  | .term => 5
  | .factor => 6

/-- The rank of unary operators. -/
def unaryRank : Nat := 7

/-- The rank of accesses and of everything that needs no operator. -/
def accessRank : Nat := 8

/-- How tightly an expression holds together. -/
def Expr.rank : Expr → Nat
  | .assign _ _ => 0
  | .set _ _ _ => 0
  | .binary _ operator _ _ => operator.level.rank
  | .unary _ _ _ => unaryRank
  | _ => accessRank

theorem Level.rank_pos (level : Level) : 0 < level.rank := by
  cases level <;> decide

theorem Level.rank_lt_unaryRank (level : Level) : level.rank < unaryRank := by
  cases level <;> decide

theorem unaryRank_lt_accessRank : unaryRank < accessRank := by
  decide

theorem Level.rank_injective {left right : Level} (same : left.rank = right.rank) :
    left = right := by
  cases left <;> cases right <;> simp_all [rank]

/-- What holds together no less tightly than a level does so more tightly, or it is an application
of an operator of that level. -/
theorem Expr.lt_rank_or_binary {level : Level} (expression : Expr)
    (rank : level.rank ≤ expression.rank) :
    level.rank < expression.rank ∨
      ∃ left operator token right, expression = .binary left operator token right ∧
        operator.level = level := by
  rcases Nat.lt_or_eq_of_le rank with tight | same
  · exact .inl tight
  · cases expression with
    | binary left operator token right =>
        exact .inr ⟨left, operator, token, right, rfl, Level.rank_injective same.symm⟩
    | assign | set => exact absurd same (Nat.ne_of_gt level.rank_pos)
    | unary => exact absurd same (Nat.ne_of_lt level.rank_lt_unaryRank)
    | _ =>
        exact absurd same
          (Nat.ne_of_lt (Nat.lt_trans level.rank_lt_unaryRank unaryRank_lt_accessRank))

/-- The rank of what operators of the given levels, the loosest first, can join. -/
def rankOf : List Level → Nat
  | [] => unaryRank
  | level :: _ => level.rank

/-- Whether the ranks of the levels rise one by one up to that of unary operators. -/
def Ascending : List Level → Prop
  | [] => True
  | level :: tighter => rankOf tighter = level.rank + 1 ∧ Ascending tighter

theorem ascending_all : Ascending Level.all := by
  simp [Ascending, Level.all, rankOf, Level.rank, unaryRank]

/-! ## Canonical form -/

mutual

/-- Operands are tight enough for their places, and tokens are of the right kinds. -/
def Expr.Canonical : Expr → Prop
  | .literal _ => True
  | .variable name => name.kind = .identifier
  | .group inner => inner.Canonical
  | .array elements => CanonicalElements elements
  | .object properties => CanonicalProperties properties
  | .unary operator token right =>
      UnaryOperator.ofKind? token.kind = some operator ∧
        unaryRank ≤ right.rank ∧ right.Canonical
  | .binary left operator token right =>
      BinaryOperator.ofKind? token.kind = some operator ∧
        operator.level.rank ≤ left.rank ∧ operator.level.rank < right.rank ∧
          left.Canonical ∧ right.Canonical
  | .get object accessor => accessRank ≤ object.rank ∧ object.Canonical ∧ accessor.Canonical
  | .assign target value => target.kind = .identifier ∧ value.Canonical
  | .set object accessor value =>
      accessRank ≤ object.rank ∧ object.Canonical ∧ accessor.Canonical ∧ value.Canonical

/-- The canonical form of an access step. -/
def Accessor.Canonical : Accessor → Prop
  | .field name => name.kind = .identifier
  | .element bracket index => bracket.kind = .sign .leftBracket ∧ index.Canonical

/-- The canonical form of array elements. -/
def CanonicalElements : List Expr → Prop
  | [] => True
  | element :: elements => element.Canonical ∧ CanonicalElements elements

/-- The canonical form of object properties. -/
def CanonicalProperties : List (Token × Expr) → Prop
  | [] => True
  | (name, value) :: properties =>
      name.kind = .identifier ∧ value.Canonical ∧ CanonicalProperties properties

end

/-- Whether the first token of an expression is an opening parenthesis. -/
def Expr.opensParenthesis : Expr → Bool
  | .group _ => true
  | .binary left _ _ _ => left.opensParenthesis
  | .get holder _ => holder.opensParenthesis
  | .set holder _ _ => holder.opensParenthesis
  | _ => false

/-- Whether the statement is a `let`. -/
def Stmt.isDeclaration : Stmt → Bool
  | .declaration _ _ => true
  | _ => false

/-- Whether the statement ends in an `if` that could take an `else` behind it. -/
def Stmt.takesElse : Stmt → Bool
  | .branch _ _ none => true
  | .branch _ _ (some negative) => negative.takesElse
  | _ => false

mutual

/-- The expressions in a statement are canonical, a `let` stands only directly in a block, and an
`else` belongs to the nearest `if` that can take it.  A choice does not look like a branch. -/
def Stmt.Canonical : Stmt → Prop
  | .block body => CanonicalBody body
  | .expression expression => expression.Canonical
  | .branch condition positive none =>
      condition.Canonical ∧ positive.Canonical ∧ positive.isDeclaration = false
  | .branch condition positive (some negative) =>
      condition.Canonical ∧ positive.Canonical ∧ positive.isDeclaration = false ∧
        positive.takesElse = false ∧ negative.Canonical ∧ negative.isDeclaration = false
  | .choice condition positive none =>
      condition.opensParenthesis = false ∧ condition.Canonical ∧ positive.Canonical
  | .choice condition positive (some negative) =>
      condition.opensParenthesis = false ∧ condition.Canonical ∧ positive.Canonical ∧
        negative.Canonical
  | .declaration name none => name.kind = .identifier
  | .declaration name (some initializer) => name.kind = .identifier ∧ initializer.Canonical

/-- The canonical form of the statements of a program or a block. -/
def CanonicalBody : List Stmt → Prop
  | [] => True
  | statement :: body => statement.Canonical ∧ CanonicalBody body

end

/-! ## Depth -/

mutual

/-- How many levels have to be open at a time inside an expression: one for each expression in
brackets, operand of a unary operator and right side of `=` around a place. -/
def Expr.depth : Expr → Nat
  | .literal _ => 0
  | .variable _ => 0
  | .group inner => inner.depth + 1
  | .array elements => depthOfElements elements
  | .object properties => depthOfProperties properties
  | .unary _ _ right => right.depth + 1
  | .binary left _ _ right => max left.depth right.depth
  | .get object accessor => max object.depth accessor.depth
  | .assign _ value => value.depth + 1
  | .set object accessor value => max (max object.depth accessor.depth) (value.depth + 1)

/-- The depth of an access step. -/
def Accessor.depth : Accessor → Nat
  | .field _ => 0
  | .element _ index => index.depth + 1

/-- The depth of array elements. -/
def depthOfElements : List Expr → Nat
  | [] => 0
  | element :: elements => max (element.depth + 1) (depthOfElements elements)

/-- The depth of object properties. -/
def depthOfProperties : List (Token × Expr) → Nat
  | [] => 0
  | (_, value) :: properties => max (value.depth + 1) (depthOfProperties properties)

end

mutual

/-- How many levels have to be open at a time to read a statement.  A statement opens one, and so
does each expression in it, but a `let` opens none of its own. -/
def Stmt.depth : Stmt → Nat
  | .block body => depthOfBody body + 1
  | .expression expression => expression.depth + 2
  | .branch condition positive none => max (condition.depth + 1) positive.depth + 1
  | .branch condition positive (some negative) =>
      max (max (condition.depth + 1) positive.depth) negative.depth + 1
  | .choice condition positive none => max condition.depth positive.depth + 2
  | .choice condition positive (some negative) =>
      max (max condition.depth positive.depth) negative.depth + 2
  | .declaration _ none => 0
  | .declaration _ (some initializer) => initializer.depth + 1

/-- The depth of the statements of a program or a block. -/
def depthOfBody : List Stmt → Nat
  | [] => 0
  | statement :: body => max statement.depth (depthOfBody body)

end

/-- Every statement opens a level, except for a `let`. -/
theorem Stmt.depth_pos {statement : Stmt} (notDeclaration : statement.isDeclaration = false) :
    0 < statement.depth := by
  cases statement with
  | declaration => contradiction
  | block | expression => exact Nat.succ_pos _
  | branch _ _ negative => cases negative <;> exact Nat.succ_pos _
  | choice _ _ negative => cases negative <;> exact Nat.succ_pos _

/-! ## Lists of parts -/

theorem canonicalElements_iff {elements : List Expr} :
    CanonicalElements elements ↔ ∀ element ∈ elements, element.Canonical := by
  induction elements with
  | nil => simp [CanonicalElements]
  | cons element elements ih => simp [CanonicalElements, ih]

theorem canonicalProperties_iff {properties : List (Token × Expr)} :
    CanonicalProperties properties ↔
      ∀ property ∈ properties, property.1.kind = .identifier ∧ property.2.Canonical := by
  induction properties with
  | nil => simp [CanonicalProperties]
  | cons property properties ih =>
      rw [CanonicalProperties, ih, List.forall_mem_cons, and_assoc]

theorem depthOfElements_le_iff {elements : List Expr} {room : Nat} :
    depthOfElements elements ≤ room ↔ ∀ element ∈ elements, element.depth < room := by
  induction elements with
  | nil => simp [depthOfElements]
  | cons element elements ih =>
      rw [depthOfElements, Nat.max_le, ih, List.forall_mem_cons, Nat.succ_le_iff]

theorem depthOfProperties_le_iff {properties : List (Token × Expr)} {room : Nat} :
    depthOfProperties properties ≤ room ↔ ∀ property ∈ properties, property.2.depth < room := by
  induction properties with
  | nil => simp [depthOfProperties]
  | cons property properties ih =>
      rw [depthOfProperties, Nat.max_le, ih, List.forall_mem_cons, Nat.succ_le_iff]

theorem depthOfBody_le_iff {body : List Stmt} {room : Nat} :
    depthOfBody body ≤ room ↔ ∀ statement ∈ body, statement.depth ≤ room := by
  induction body with
  | nil => simp [depthOfBody]
  | cons statement body ih => rw [depthOfBody, Nat.max_le, ih, List.forall_mem_cons]

end Descriptor
