import Descriptor.Proofs.Grammar.Writing.Statement
import Mathlib.Data.Set.Defs

/-!
# Heights of trees

Whatever walks over a tree calls itself as deep as the tree is high.  The limit on nesting bounds
how many levels a tree has, but not its height: on one level any number of operators and accesses
may follow each other, `a + a + a` or `a.b.b`, and each of them adds to the height.

They are all that adds to it.  A tree with at most `levels` levels and at most `links` operators
and accesses after each other is no higher than `levels * (links + 1) + 1`, so that heights are
bounded exactly where such chains are.
-/

namespace Descriptor

/-! ## Heights -/

mutual

/-- How many nodes lie on a longest path down an expression. -/
def Expr.height : Expr → Nat
  | .literal _ => 1
  | .variable _ => 1
  | .group inner => inner.height + 1
  | .array elements => heightOfElements elements + 1
  | .object properties => heightOfProperties properties + 1
  | .unary _ _ right => right.height + 1
  | .binary left _ _ right => max left.height right.height + 1
  | .get object accessor => max object.height accessor.height + 1
  | .assign _ value => value.height + 1
  | .set object accessor value => max (max object.height accessor.height) value.height + 1

/-- The height of an access step. -/
def Accessor.height : Accessor → Nat
  | .field _ => 1
  | .element _ index => index.height + 1

/-- The height of the highest array element. -/
def heightOfElements : List Expr → Nat
  | [] => 0
  | element :: elements => max element.height (heightOfElements elements)

/-- The height of the highest value of a property. -/
def heightOfProperties : List (Token × Expr) → Nat
  | [] => 0
  | (_, value) :: properties => max value.height (heightOfProperties properties)

end

mutual

/-- How many nodes lie on a longest path down a statement. -/
def Stmt.height : Stmt → Nat
  | .block body => heightOfBody body + 1
  | .expression expression => expression.height + 1
  | .branch condition positive none => max condition.height positive.height + 1
  | .branch condition positive (some negative) =>
      max (max condition.height positive.height) negative.height + 1
  | .choice condition positive none => max condition.height positive.height + 1
  | .choice condition positive (some negative) =>
      max (max condition.height positive.height) negative.height + 1
  | .declaration _ none => 1
  | .declaration _ (some initializer) => initializer.height + 1

/-- The height of the highest statement. -/
def heightOfBody : List Stmt → Nat
  | [] => 0
  | statement :: body => max statement.height (heightOfBody body)

end

/-! ## Chains -/

/-- How many operators between operands and accesses follow each other from an expression down,
on the level of the expression. -/
def Expr.chain : Expr → Nat
  | .binary left _ _ right => max left.chain right.chain + 1
  | .get holder _ => holder.chain + 1
  | .set holder _ _ => holder.chain + 1
  | _ => 0

mutual

/-- The length of the longest chain in an expression, at any depth. -/
def Expr.longestChain : Expr → Nat
  | .literal _ => 0
  | .variable _ => 0
  | .group inner => inner.longestChain
  | .array elements => longestChainOfElements elements
  | .object properties => longestChainOfProperties properties
  | .unary _ _ right => right.longestChain
  | .binary left _ _ right =>
      max (max left.longestChain right.longestChain) (max left.chain right.chain + 1)
  | .get object accessor =>
      max (max object.longestChain accessor.longestChain) (object.chain + 1)
  | .assign _ value => value.longestChain
  | .set object accessor value =>
      max (max (max object.longestChain accessor.longestChain) value.longestChain)
        (object.chain + 1)

/-- The length of the longest chain in an access step. -/
def Accessor.longestChain : Accessor → Nat
  | .field _ => 0
  | .element _ index => index.longestChain

/-- The length of the longest chain in array elements. -/
def longestChainOfElements : List Expr → Nat
  | [] => 0
  | element :: elements => max element.longestChain (longestChainOfElements elements)

/-- The length of the longest chain in object properties. -/
def longestChainOfProperties : List (Token × Expr) → Nat
  | [] => 0
  | (_, value) :: properties => max value.longestChain (longestChainOfProperties properties)

end

mutual

/-- The length of the longest chain in a statement. -/
def Stmt.longestChain : Stmt → Nat
  | .block body => longestChainOfBody body
  | .expression expression => expression.longestChain
  | .branch condition positive none => max condition.longestChain positive.longestChain
  | .branch condition positive (some negative) =>
      max (max condition.longestChain positive.longestChain) negative.longestChain
  | .choice condition positive none => max condition.longestChain positive.longestChain
  | .choice condition positive (some negative) =>
      max (max condition.longestChain positive.longestChain) negative.longestChain
  | .declaration _ none => 0
  | .declaration _ (some initializer) => initializer.longestChain

/-- The length of the longest chain in some statements. -/
def longestChainOfBody : List Stmt → Nat
  | [] => 0
  | statement :: body => max statement.longestChain (longestChainOfBody body)

end

theorem Expr.chain_le_longestChain (expression : Expr) :
    expression.chain ≤ expression.longestChain := by
  cases expression <;> simp only [chain, longestChain] <;> omega

/-! ## Chains are no longer than trees are high -/

theorem Expr.chain_lt_height : ∀ expression : Expr, expression.chain < expression.height
  | .binary left _ _ right => by
      have := left.chain_lt_height
      have := right.chain_lt_height
      simp only [chain, height]
      omega
  | .get holder _ | .set holder _ _ => by
      have := holder.chain_lt_height
      simp only [chain, height]
      omega
  | .literal _ | .variable _ | .group _ | .array _ | .object _ | .unary _ _ _ | .assign _ _ => by
      simp only [chain, height]
      omega

mutual

theorem Expr.longestChain_lt_height :
    ∀ expression : Expr, expression.longestChain < expression.height
  | .literal _ | .variable _ => Nat.zero_lt_one
  | .group inner => Nat.lt_succ_of_lt inner.longestChain_lt_height
  | .array elements => Nat.lt_succ_of_le (longestChainOfElements_le_height elements)
  | .object properties => Nat.lt_succ_of_le (longestChainOfProperties_le_height properties)
  | .unary _ _ right => Nat.lt_succ_of_lt right.longestChain_lt_height
  | .binary left _ _ right => by
      have := left.longestChain_lt_height
      have := right.longestChain_lt_height
      have := left.chain_lt_height
      have := right.chain_lt_height
      simp only [Expr.longestChain, Expr.height]
      omega
  | .get object accessor => by
      have := object.longestChain_lt_height
      have := accessor.longestChain_lt_height
      have := object.chain_lt_height
      simp only [Expr.longestChain, Expr.height]
      omega
  | .assign _ value => Nat.lt_succ_of_lt value.longestChain_lt_height
  | .set object accessor value => by
      have := object.longestChain_lt_height
      have := accessor.longestChain_lt_height
      have := value.longestChain_lt_height
      have := object.chain_lt_height
      simp only [Expr.longestChain, Expr.height]
      omega

theorem Accessor.longestChain_lt_height :
    ∀ accessor : Accessor, accessor.longestChain < accessor.height
  | .field _ => Nat.zero_lt_one
  | .element _ index => Nat.lt_succ_of_lt index.longestChain_lt_height

theorem longestChainOfElements_le_height :
    ∀ elements : List Expr, longestChainOfElements elements ≤ heightOfElements elements
  | [] => Nat.le_refl 0
  | element :: elements => by
      have := element.longestChain_lt_height
      have := longestChainOfElements_le_height elements
      simp only [longestChainOfElements, heightOfElements]
      omega

theorem longestChainOfProperties_le_height :
    ∀ properties : List (Token × Expr),
      longestChainOfProperties properties ≤ heightOfProperties properties
  | [] => Nat.le_refl 0
  | (_, value) :: properties => by
      have := value.longestChain_lt_height
      have := longestChainOfProperties_le_height properties
      simp only [longestChainOfProperties, heightOfProperties]
      omega

end

mutual

theorem Stmt.longestChain_lt_height :
    ∀ statement : Stmt, statement.longestChain < statement.height
  | .block body => Nat.lt_succ_of_le (longestChainOfBody_le_height body)
  | .expression expression => Nat.lt_succ_of_lt expression.longestChain_lt_height
  | .branch condition positive none => by
      have := condition.longestChain_lt_height
      have := positive.longestChain_lt_height
      simp only [Stmt.longestChain, Stmt.height]
      omega
  | .branch condition positive (some negative) => by
      have := condition.longestChain_lt_height
      have := positive.longestChain_lt_height
      have := negative.longestChain_lt_height
      simp only [Stmt.longestChain, Stmt.height]
      omega
  | .choice condition positive none => by
      have := condition.longestChain_lt_height
      have := positive.longestChain_lt_height
      simp only [Stmt.longestChain, Stmt.height]
      omega
  | .choice condition positive (some negative) => by
      have := condition.longestChain_lt_height
      have := positive.longestChain_lt_height
      have := negative.longestChain_lt_height
      simp only [Stmt.longestChain, Stmt.height]
      omega
  | .declaration _ none => Nat.zero_lt_one
  | .declaration _ (some initializer) => Nat.lt_succ_of_lt initializer.longestChain_lt_height

theorem longestChainOfBody_le_height :
    ∀ body : List Stmt, longestChainOfBody body ≤ heightOfBody body
  | [] => Nat.le_refl 0
  | statement :: body => by
      have := statement.longestChain_lt_height
      have := longestChainOfBody_le_height body
      simp only [longestChainOfBody, heightOfBody]
      omega

end

/-! ## Trees are no higher than levels and chains allow -/

section Height

variable {links : Nat}

/-- An expression that opens a level is no higher than the levels from there on allow, since its
chain is short enough to lie on one of them. -/
theorem Expr.height_le_of_opened {expression : Expr} {levels : Nat}
    (high : ∀ levels, expression.depth ≤ levels →
      expression.height ≤ expression.chain + 1 + levels * (links + 1))
    (chains : expression.longestChain ≤ links) (opened : expression.depth < levels) :
    expression.height ≤ levels * (links + 1) :=
  calc expression.height
      ≤ expression.chain + 1 + expression.depth * (links + 1) := high _ le_rfl
    _ ≤ (links + 1) + expression.depth * (links + 1) := by
        have := expression.chain_le_longestChain
        omega
    _ = (expression.depth + 1) * (links + 1) := by rw [Nat.succ_mul, Nat.add_comm]
    _ ≤ levels * (links + 1) := Nat.mul_le_mul_right _ opened

mutual

/-- The chain of an expression adds to its height, and so do the levels behind the chain. -/
theorem Expr.height_le :
    ∀ expression : Expr, expression.longestChain ≤ links → ∀ levels, expression.depth ≤ levels →
      expression.height ≤ expression.chain + 1 + levels * (links + 1)
  | .literal _, _, levels, _ | .variable _, _, levels, _ => by
      simp only [Expr.height]
      omega
  | .group inner, chains, levels, depth => by
      have := Expr.height_le_of_opened (inner.height_le chains) chains depth
      simp only [Expr.height]
      omega
  | .array elements, chains, levels, depth => by
      have := heightOfElements_le elements chains levels depth
      simp only [Expr.height]
      omega
  | .object properties, chains, levels, depth => by
      have := heightOfProperties_le properties chains levels depth
      simp only [Expr.height]
      omega
  | .unary _ _ right, chains, levels, depth => by
      have := Expr.height_le_of_opened (right.height_le chains) chains depth
      simp only [Expr.height]
      omega
  | .binary left _ _ right, chains, levels, depth => by
      simp only [Expr.longestChain, Nat.max_le] at chains
      simp only [Expr.depth, Nat.max_le] at depth
      have := left.height_le chains.1.1 levels depth.1
      have := right.height_le chains.1.2 levels depth.2
      simp only [Expr.height, Expr.chain]
      omega
  | .get object accessor, chains, levels, depth => by
      simp only [Expr.longestChain, Nat.max_le] at chains
      simp only [Expr.depth, Nat.max_le] at depth
      have := object.height_le chains.1.1 levels depth.1
      have := accessor.height_le chains.1.2 levels depth.2
      simp only [Expr.height, Expr.chain]
      omega
  | .assign _ value, chains, levels, depth => by
      have := Expr.height_le_of_opened (value.height_le chains) chains depth
      simp only [Expr.height]
      omega
  | .set object accessor value, chains, levels, depth => by
      simp only [Expr.longestChain, Nat.max_le] at chains
      simp only [Expr.depth, Nat.max_le] at depth
      have := object.height_le chains.1.1.1 levels depth.1.1
      have := accessor.height_le chains.1.1.2 levels depth.1.2
      have := Expr.height_le_of_opened (value.height_le chains.1.2) chains.1.2 depth.2
      simp only [Expr.height, Expr.chain]
      omega

/-- An access step adds itself to the levels of its index. -/
theorem Accessor.height_le :
    ∀ accessor : Accessor, accessor.longestChain ≤ links → ∀ levels, accessor.depth ≤ levels →
      accessor.height ≤ 1 + levels * (links + 1)
  | .field _, _, levels, _ => by
      simp only [Accessor.height]
      omega
  | .element _ index, chains, levels, depth => by
      have := Expr.height_le_of_opened (index.height_le chains) chains depth
      simp only [Accessor.height]
      omega

/-- Each array element opens a level. -/
theorem heightOfElements_le :
    ∀ elements : List Expr, longestChainOfElements elements ≤ links →
      ∀ levels, depthOfElements elements ≤ levels →
        heightOfElements elements ≤ levels * (links + 1)
  | [], _, _, _ => Nat.zero_le _
  | element :: elements, chains, levels, depth => by
      simp only [longestChainOfElements, Nat.max_le] at chains
      simp only [depthOfElements, Nat.max_le] at depth
      exact Nat.max_le.mpr
        ⟨Expr.height_le_of_opened (element.height_le chains.1) chains.1 depth.1,
          heightOfElements_le elements chains.2 levels depth.2⟩

/-- Each value of a property opens a level. -/
theorem heightOfProperties_le :
    ∀ properties : List (Token × Expr), longestChainOfProperties properties ≤ links →
      ∀ levels, depthOfProperties properties ≤ levels →
        heightOfProperties properties ≤ levels * (links + 1)
  | [], _, _, _ => Nat.zero_le _
  | (_, value) :: properties, chains, levels, depth => by
      simp only [longestChainOfProperties, Nat.max_le] at chains
      simp only [depthOfProperties, Nat.max_le] at depth
      exact Nat.max_le.mpr
        ⟨Expr.height_le_of_opened (value.height_le chains.1) chains.1 depth.1,
          heightOfProperties_le properties chains.2 levels depth.2⟩

end

/-- A statement that stands inside another one has at least one level less. -/
theorem le_of_opened {height inner levels : Nat} (high : height ≤ inner * (links + 1) + 1)
    (opened : inner < levels) : height ≤ levels * (links + 1) :=
  high.trans (Nat.mul_lt_mul_of_pos_right opened (Nat.succ_pos links))

mutual

/-- A statement is no higher than its levels and its chains allow. -/
theorem Stmt.height_le :
    ∀ statement : Stmt, statement.longestChain ≤ links → ∀ levels, statement.depth ≤ levels →
      statement.height ≤ levels * (links + 1) + 1
  | .block body, chains, levels, depth =>
      Nat.succ_le_succ (le_of_opened (heightOfBody_le body chains _ le_rfl) depth)
  | .expression expression, chains, levels, depth => by
      have := Expr.height_le_of_opened (expression.height_le chains) chains
        (Nat.lt_of_succ_lt depth)
      simp only [Stmt.height]
      omega
  | .branch condition positive none, chains, levels, depth => by
      simp only [Stmt.longestChain, Nat.max_le] at chains
      simp only [Stmt.depth, Nat.succ_le_iff, Nat.max_lt] at depth
      have := Expr.height_le_of_opened (condition.height_le chains.1) chains.1
        (Nat.lt_of_succ_lt depth.1)
      have := le_of_opened (positive.height_le chains.2 _ le_rfl) depth.2
      simp only [Stmt.height]
      omega
  | .branch condition positive (some negative), chains, levels, depth => by
      simp only [Stmt.longestChain, Nat.max_le] at chains
      simp only [Stmt.depth, Nat.succ_le_iff, Nat.max_lt] at depth
      have := Expr.height_le_of_opened (condition.height_le chains.1.1) chains.1.1
        (Nat.lt_of_succ_lt depth.1.1)
      have := le_of_opened (positive.height_le chains.1.2 _ le_rfl) depth.1.2
      have := le_of_opened (negative.height_le chains.2 _ le_rfl) depth.2
      simp only [Stmt.height]
      omega
  | .choice condition positive none, chains, levels, depth => by
      simp only [Stmt.longestChain, Nat.max_le] at chains
      simp only [Stmt.depth, Nat.succ_le_iff] at depth
      have opened := Nat.max_lt.mp (Nat.lt_of_succ_lt depth)
      have := Expr.height_le_of_opened (condition.height_le chains.1) chains.1 opened.1
      have := Expr.height_le_of_opened (positive.height_le chains.2) chains.2 opened.2
      simp only [Stmt.height]
      omega
  | .choice condition positive (some negative), chains, levels, depth => by
      simp only [Stmt.longestChain, Nat.max_le] at chains
      simp only [Stmt.depth, Nat.succ_le_iff] at depth
      have opened := Nat.max_lt.mp (Nat.lt_of_succ_lt depth)
      have openedFirst := Nat.max_lt.mp opened.1
      have := Expr.height_le_of_opened (condition.height_le chains.1.1) chains.1.1 openedFirst.1
      have := Expr.height_le_of_opened (positive.height_le chains.1.2) chains.1.2 openedFirst.2
      have := Expr.height_le_of_opened (negative.height_le chains.2) chains.2 opened.2
      simp only [Stmt.height]
      omega
  | .declaration _ none, _, levels, _ => Nat.le_add_left 1 _
  | .declaration _ (some initializer), chains, levels, depth =>
      Nat.succ_le_succ (Expr.height_le_of_opened (initializer.height_le chains) chains depth)

/-- Statements are no higher than their levels and their chains allow. -/
theorem heightOfBody_le :
    ∀ body : List Stmt, longestChainOfBody body ≤ links → ∀ levels, depthOfBody body ≤ levels →
      heightOfBody body ≤ levels * (links + 1) + 1
  | [], _, _, _ => Nat.zero_le _
  | statement :: body, chains, levels, depth => by
      simp only [longestChainOfBody, Nat.max_le] at chains
      simp only [depthOfBody, Nat.max_le] at depth
      exact Nat.max_le.mpr ⟨statement.height_le chains.1 levels depth.1,
        heightOfBody_le body chains.2 levels depth.2⟩

end

end Height

/-! ## Trees that are read -/

/-- `1`, as a token. -/
def oneToken : Token := ⟨.number 1, "1", 1⟩

end Descriptor
