import Descriptor.Proofs.Grammar.Canonical
import Descriptor.Proofs.Grammar.View.Statement

/-!
# Trees without separators

In the trees that the grammar builds no token is a separator, so what a map of tokens does to
separators does not matter for them: `mapBody_congr`.
-/

namespace Descriptor

variable {map map' : Token → Token}

/-- Two maps do the same to all tokens but separators. -/
def SameOnWords (map map' : Token → Token) : Prop :=
  ∀ token : Token, token.kind ≠ .separator → map token = map' token

theorem SameOnWords.of_kind (same : SameOnWords map map') {token : Token} {kind : Kind}
    (isKind : token.kind = kind) (other : kind ≠ .separator) : map token = map' token :=
  same token (isKind ▸ other)

theorem SameOnWords.of_unary (same : SameOnWords map map') {token : Token}
    {operator : UnaryOperator} (isOperator : UnaryOperator.ofKind? token.kind = some operator) :
    map token = map' token := by
  apply same
  intro isSeparator
  rw [isSeparator] at isOperator
  contradiction

theorem SameOnWords.of_binary (same : SameOnWords map map') {token : Token}
    {operator : BinaryOperator} (isOperator : BinaryOperator.ofKind? token.kind = some operator) :
    map token = map' token := by
  apply same
  intro isSeparator
  rw [isSeparator] at isOperator
  contradiction

mutual

/-- What is done to separators does not matter for an expression. -/
theorem Expr.mapTokens_congr (same : SameOnWords map map') :
    ∀ expression : Expr, expression.Canonical →
      expression.mapTokens map = expression.mapTokens map'
  | .literal _, _ => rfl
  | .variable _, isName => by
      simp only [Expr.mapTokens]
      rw [same.of_kind isName nofun]
  | .group inner, canonical => by
      simp only [Expr.mapTokens]
      rw [inner.mapTokens_congr same canonical]
  | .array elements, canonical => by
      simp only [Expr.mapTokens]
      rw [mapElements_congr same elements canonical]
  | .object properties, canonical => by
      simp only [Expr.mapTokens]
      rw [mapProperties_congr same properties canonical]
  | .unary _ _ right, canonical => by
      rcases canonical with ⟨isOperator, -, canonical⟩
      simp only [Expr.mapTokens]
      rw [same.of_unary isOperator, right.mapTokens_congr same canonical]
  | .binary left _ _ right, canonical => by
      rcases canonical with ⟨isOperator, -, -, canonicalLeft, canonicalRight⟩
      simp only [Expr.mapTokens]
      rw [same.of_binary isOperator, left.mapTokens_congr same canonicalLeft,
        right.mapTokens_congr same canonicalRight]
  | .get object accessor, canonical => by
      rcases canonical with ⟨-, canonical, canonicalAccessor⟩
      simp only [Expr.mapTokens]
      rw [object.mapTokens_congr same canonical, accessor.mapTokens_congr same canonicalAccessor]
  | .assign _ value, canonical => by
      rcases canonical with ⟨isName, canonical⟩
      simp only [Expr.mapTokens]
      rw [same.of_kind isName nofun, value.mapTokens_congr same canonical]
  | .set object accessor value, canonical => by
      rcases canonical with ⟨-, canonical, canonicalAccessor, canonicalValue⟩
      simp only [Expr.mapTokens]
      rw [object.mapTokens_congr same canonical, accessor.mapTokens_congr same canonicalAccessor,
        value.mapTokens_congr same canonicalValue]

/-- What is done to separators does not matter for an access step. -/
theorem Accessor.mapTokens_congr (same : SameOnWords map map') :
    ∀ accessor : Accessor, accessor.Canonical →
      accessor.mapTokens map = accessor.mapTokens map'
  | .field _, isName => by
      simp only [Accessor.mapTokens]
      rw [same.of_kind isName nofun]
  | .element _ index, canonical => by
      rcases canonical with ⟨isBracket, canonical⟩
      simp only [Accessor.mapTokens]
      rw [same.of_kind isBracket nofun, index.mapTokens_congr same canonical]

/-- What is done to separators does not matter for array elements. -/
theorem mapElements_congr (same : SameOnWords map map') :
    ∀ elements : List Expr, CanonicalElements elements →
      mapElements map elements = mapElements map' elements
  | [], _ => rfl
  | element :: elements, canonical => by
      rcases canonical with ⟨canonical, others⟩
      simp only [mapElements]
      rw [element.mapTokens_congr same canonical, mapElements_congr same elements others]

/-- What is done to separators does not matter for object properties. -/
theorem mapProperties_congr (same : SameOnWords map map') :
    ∀ properties : List (Token × Expr), CanonicalProperties properties →
      mapProperties map properties = mapProperties map' properties
  | [], _ => rfl
  | (_, value) :: properties, canonical => by
      rcases canonical with ⟨isName, canonical, others⟩
      simp only [mapProperties]
      rw [same.of_kind isName nofun, value.mapTokens_congr same canonical,
        mapProperties_congr same properties others]

end

mutual

/-- What is done to separators does not matter for a statement. -/
theorem Stmt.mapTokens_congr (same : SameOnWords map map') :
    ∀ statement : Stmt, statement.Canonical → statement.mapTokens map = statement.mapTokens map'
  | .block body, canonical => by
      simp only [Stmt.mapTokens]
      rw [mapBody_congr same body canonical]
  | .expression expression, canonical => by
      simp only [Stmt.mapTokens]
      rw [expression.mapTokens_congr same canonical]
  | .branch condition positive none, canonical => by
      rcases canonical with ⟨canonical, canonicalPositive, -⟩
      simp only [Stmt.mapTokens]
      rw [condition.mapTokens_congr same canonical, positive.mapTokens_congr same canonicalPositive]
  | .branch condition positive (some negative), canonical => by
      rcases canonical with ⟨canonical, canonicalPositive, -, -, canonicalNegative, -⟩
      simp only [Stmt.mapTokens]
      rw [condition.mapTokens_congr same canonical, positive.mapTokens_congr same canonicalPositive,
        negative.mapTokens_congr same canonicalNegative]
  | .choice condition positive none, canonical => by
      rcases canonical with ⟨-, canonical, canonicalPositive⟩
      simp only [Stmt.mapTokens, Option.map_none]
      rw [condition.mapTokens_congr same canonical,
        positive.mapTokens_congr same canonicalPositive]
  | .choice condition positive (some negative), canonical => by
      rcases canonical with ⟨-, canonical, canonicalPositive, canonicalNegative⟩
      simp only [Stmt.mapTokens, Option.map_some]
      rw [condition.mapTokens_congr same canonical,
        positive.mapTokens_congr same canonicalPositive,
        negative.mapTokens_congr same canonicalNegative]
  | .declaration _ none, isName => by
      simp only [Stmt.mapTokens, Option.map_none]
      rw [same.of_kind isName nofun]
  | .declaration _ (some initializer), canonical => by
      rcases canonical with ⟨isName, canonical⟩
      simp only [Stmt.mapTokens, Option.map_some]
      rw [same.of_kind isName nofun, initializer.mapTokens_congr same canonical]

/-- What is done to separators does not matter for the statements of a program or a block. -/
theorem mapBody_congr (same : SameOnWords map map') :
    ∀ body : List Stmt, CanonicalBody body → mapBody map body = mapBody map' body
  | [], _ => rfl
  | statement :: body, canonical => by
      rcases canonical with ⟨canonical, others⟩
      simp only [mapBody]
      rw [statement.mapTokens_congr same canonical, mapBody_congr same body others]

end

end Descriptor
