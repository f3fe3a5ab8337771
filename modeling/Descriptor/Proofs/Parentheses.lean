import Descriptor.Proofs.Trace

/-!
# Parentheses mean nothing

Parentheses show how a text was grouped.  The tree keeps them, but its shape says the same, so that
a program runs alike without them: `evaluate_ungroupBody`.  This includes the places of writes,
where parentheses must neither hide nor add the mark of a readonly frame.  The proof therefore goes
through expressions for both purposes at once.
-/

namespace Descriptor

/-! ## Leaving parentheses out -/

mutual

/-- The expression with what stands in parentheses instead of the parentheses, at any depth. -/
def Expr.ungroup : Expr → Expr
  | .literal value => .literal value
  | .variable name => .variable name
  | .group inner => inner.ungroup
  | .array elements => .array (ungroupElements elements)
  | .object properties => .object (ungroupProperties properties)
  | .unary operator token right => .unary operator token right.ungroup
  | .binary left operator token right => .binary left.ungroup operator token right.ungroup
  | .get object accessor => .get object.ungroup accessor.ungroup
  | .assign target value => .assign target value.ungroup
  | .set object accessor value => .set object.ungroup accessor.ungroup value.ungroup

/-- The access step without parentheses in its index. -/
def Accessor.ungroup : Accessor → Accessor
  | .field name => .field name
  | .element bracket index => .element bracket index.ungroup

/-- The array elements without parentheses. -/
def ungroupElements : List Expr → List Expr
  | [] => []
  | element :: elements => element.ungroup :: ungroupElements elements

/-- The object properties without parentheses. -/
def ungroupProperties : List (Token × Expr) → List (Token × Expr)
  | [] => []
  | (name, value) :: properties => (name, value.ungroup) :: ungroupProperties properties

end

mutual

/-- The statement without parentheses in its expressions. -/
def Stmt.ungroup : Stmt → Stmt
  | .block body => .block (ungroupBody body)
  | .expression expression => .expression expression.ungroup
  | .branch condition positive none => .branch condition.ungroup positive.ungroup none
  | .branch condition positive (some negative) =>
      .branch condition.ungroup positive.ungroup (some negative.ungroup)
  | .choice condition positive negative =>
      .choice condition.ungroup positive.ungroup (negative.map Expr.ungroup)
  | .declaration name initializer => .declaration name (initializer.map Expr.ungroup)

/-- The statements without parentheses in their expressions. -/
def ungroupBody : List Stmt → List Stmt
  | [] => []
  | statement :: body => statement.ungroup :: ungroupBody body

end

/-! ## None are left -/

/-- Whether a node is an expression in parentheses. -/
def Node.isGroup : Node → Bool
  | .expression (.group _) => true
  | _ => false

mutual

theorem Expr.nodes_ungroup :
    ∀ expression : Expr, ∀ node ∈ expression.ungroup.nodes, node.isGroup = false
  | .literal _ => by simp [Expr.ungroup, Expr.nodes, Node.isGroup]
  | .variable _ => by simp [Expr.ungroup, Expr.nodes, Node.isGroup]
  | .group inner => by
      rw [Expr.ungroup]
      exact inner.nodes_ungroup
  | .array elements => by
      simp only [Expr.ungroup, Expr.nodes, List.forall_mem_append, List.forall_mem_singleton]
      exact ⟨nodesOfElements_ungroup elements, rfl⟩
  | .object properties => by
      simp only [Expr.ungroup, Expr.nodes, List.forall_mem_append, List.forall_mem_singleton]
      exact ⟨nodesOfProperties_ungroup properties, rfl⟩
  | .unary _ _ right => by
      simp only [Expr.ungroup, Expr.nodes, List.forall_mem_append, List.forall_mem_singleton]
      exact ⟨right.nodes_ungroup, rfl⟩
  | .binary left _ _ right => by
      simp only [Expr.ungroup, Expr.nodes, List.forall_mem_append, List.forall_mem_singleton]
      exact ⟨⟨left.nodes_ungroup, right.nodes_ungroup⟩, rfl⟩
  | .get object accessor => by
      simp only [Expr.ungroup, Expr.nodes, List.forall_mem_append, List.forall_mem_singleton]
      exact ⟨⟨object.nodes_ungroup, accessor.nodes_ungroup⟩, rfl⟩
  | .assign _ value => by
      simp only [Expr.ungroup, Expr.nodes, List.forall_mem_append, List.forall_mem_singleton]
      exact ⟨value.nodes_ungroup, rfl⟩
  | .set object accessor value => by
      simp only [Expr.ungroup, Expr.nodes, List.forall_mem_append, List.forall_mem_singleton]
      exact ⟨⟨⟨object.nodes_ungroup, accessor.nodes_ungroup⟩, value.nodes_ungroup⟩,
        rfl⟩

theorem Accessor.nodes_ungroup :
    ∀ accessor : Accessor, ∀ node ∈ accessor.ungroup.nodes, node.isGroup = false
  | .field _ => by simp [Accessor.ungroup, Accessor.nodes]
  | .element _ index => by
      rw [Accessor.ungroup, Accessor.nodes]
      exact index.nodes_ungroup

theorem nodesOfElements_ungroup :
    ∀ elements : List Expr,
      ∀ node ∈ nodesOfElements (ungroupElements elements), node.isGroup = false
  | [] => by simp [ungroupElements, nodesOfElements]
  | element :: elements => by
      rw [ungroupElements, nodesOfElements, List.forall_mem_append]
      exact ⟨element.nodes_ungroup, nodesOfElements_ungroup elements⟩

theorem nodesOfProperties_ungroup :
    ∀ properties : List (Token × Expr),
      ∀ node ∈ nodesOfProperties (ungroupProperties properties), node.isGroup = false
  | [] => by simp [ungroupProperties, nodesOfProperties]
  | (_, value) :: properties => by
      rw [ungroupProperties, nodesOfProperties, List.forall_mem_append]
      exact ⟨value.nodes_ungroup, nodesOfProperties_ungroup properties⟩

end

mutual

theorem Stmt.nodes_ungroup :
    ∀ statement : Stmt, ∀ node ∈ statement.ungroup.nodes, node.isGroup = false
  | .block body => by
      simp only [Stmt.ungroup, Stmt.nodes, List.forall_mem_append, List.forall_mem_singleton]
      exact ⟨nodesOfBody_ungroup body, rfl⟩
  | .expression expression => by
      simp only [Stmt.ungroup, Stmt.nodes, List.forall_mem_append, List.forall_mem_singleton]
      exact ⟨expression.nodes_ungroup, rfl⟩
  | .branch condition positive none => by
      simp only [Stmt.ungroup, Stmt.nodes, List.forall_mem_append, List.forall_mem_singleton]
      exact ⟨⟨condition.nodes_ungroup, positive.nodes_ungroup⟩, rfl⟩
  | .branch condition positive (some negative) => by
      simp only [Stmt.ungroup, Stmt.nodes, List.forall_mem_append, List.forall_mem_singleton]
      exact ⟨⟨⟨condition.nodes_ungroup, positive.nodes_ungroup⟩, negative.nodes_ungroup⟩,
        rfl⟩
  | .choice condition positive none => by
      simp only [Stmt.ungroup, Option.map_none, Stmt.nodes, List.forall_mem_append,
        List.forall_mem_singleton]
      exact ⟨⟨condition.nodes_ungroup, positive.nodes_ungroup⟩, rfl⟩
  | .choice condition positive (some negative) => by
      simp only [Stmt.ungroup, Option.map_some, Stmt.nodes, List.forall_mem_append,
        List.forall_mem_singleton]
      exact ⟨⟨⟨condition.nodes_ungroup, positive.nodes_ungroup⟩, negative.nodes_ungroup⟩,
        rfl⟩
  | .declaration _ none => by simp [Stmt.ungroup, Stmt.nodes, Node.isGroup]
  | .declaration _ (some initializer) => by
      simp only [Stmt.ungroup, Option.map_some, Stmt.nodes, List.forall_mem_append,
        List.forall_mem_singleton]
      exact ⟨initializer.nodes_ungroup, rfl⟩

theorem nodesOfBody_ungroup :
    ∀ body : List Stmt, ∀ node ∈ nodesOfBody (ungroupBody body), node.isGroup = false
  | [] => by simp [ungroupBody, nodesOfBody]
  | statement :: body => by
      rw [ungroupBody, nodesOfBody, List.forall_mem_append]
      exact ⟨statement.nodes_ungroup, nodesOfBody_ungroup body⟩

end

/-! ## The same runs -/

/-- Errors about an access refer to the same token. -/
theorem Accessor.token_ungroup (accessor : Accessor) : accessor.ungroup.token = accessor.token := by
  cases accessor <;> rfl

mutual

/-- An expression runs alike without parentheses, for its value and as the place of a write. -/
theorem Expr.run_ungroup (purpose : Purpose) :
    ∀ expression : Expr, expression.ungroup.run purpose = expression.run purpose
  | .literal _ => rfl
  | .variable _ => rfl
  | .group inner => by rw [Expr.ungroup, Expr.run, inner.run_ungroup purpose]
  | .array elements => by
      simp only [Expr.ungroup, Expr.run, runElements_ungroup elements]
  | .object properties => by
      simp only [Expr.ungroup, Expr.run, runProperties_ungroup properties]
  | .unary _ _ right => by
      rw [Expr.ungroup, Expr.run, Expr.run, right.run_ungroup .value]
  | .binary left _ _ right => by
      rw [Expr.ungroup, Expr.run, Expr.run, left.run_ungroup .value, right.run_ungroup .value]
  | .get object accessor => by
      rw [Expr.ungroup, Expr.run, Expr.run, object.run_ungroup purpose, accessor.runKey_ungroup,
        accessor.token_ungroup]
  | .assign _ value => by
      rw [Expr.ungroup, Expr.run, Expr.run, value.run_ungroup .value]
  | .set object accessor value => by
      rw [Expr.ungroup, Expr.run, Expr.run, object.run_ungroup .place, accessor.runKey_ungroup,
        value.run_ungroup .value, accessor.token_ungroup]

theorem Accessor.runKey_ungroup :
    ∀ accessor : Accessor, accessor.ungroup.runKey = accessor.runKey
  | .field _ => rfl
  | .element _ index => by
      rw [Accessor.ungroup, Accessor.runKey, Accessor.runKey, index.run_ungroup .value]

theorem runElements_ungroup :
    ∀ elements : List Expr, runElements (ungroupElements elements) = runElements elements
  | [] => rfl
  | element :: elements => by
      rw [ungroupElements, runElements, runElements, element.run_ungroup .value,
        runElements_ungroup elements]

theorem runProperties_ungroup :
    ∀ properties : List (Token × Expr),
      runProperties (ungroupProperties properties) = runProperties properties
  | [] => rfl
  | (_, value) :: properties => by
      rw [ungroupProperties, runProperties, runProperties, value.run_ungroup .value,
        runProperties_ungroup properties]

end

theorem Expr.evaluate_ungroup (expression : Expr) :
    expression.ungroup.evaluate = expression.evaluate := by
  rw [Expr.evaluate, Expr.evaluate, expression.run_ungroup .value]

mutual

/-- A statement runs alike without parentheses. -/
theorem Stmt.run_ungroup : ∀ statement : Stmt, statement.ungroup.run = statement.run
  | .block body => by rw [Stmt.ungroup, Stmt.run, Stmt.run, runFrom_ungroup]
  | .expression expression => by
      rw [Stmt.ungroup, Stmt.run, Stmt.run, expression.evaluate_ungroup]
  | .branch condition positive none => by
      simp only [Stmt.ungroup, Stmt.run, condition.evaluate_ungroup, positive.run_ungroup]
  | .branch condition positive (some negative) => by
      simp only [Stmt.ungroup, Stmt.run, condition.evaluate_ungroup, positive.run_ungroup,
        negative.run_ungroup]
  | .choice condition positive none => by
      simp only [Stmt.ungroup, Stmt.run, Option.map_none, condition.evaluate_ungroup,
        positive.evaluate_ungroup]
  | .choice condition positive (some negative) => by
      simp only [Stmt.ungroup, Stmt.run, Option.map_some, condition.evaluate_ungroup,
        positive.evaluate_ungroup, negative.evaluate_ungroup]
  | .declaration _ none => rfl
  | .declaration _ (some initializer) => by
      simp only [Stmt.ungroup, Stmt.run, Option.map_some, initializer.evaluate_ungroup]

theorem runFrom_ungroup (last : Value) :
    ∀ body : List Stmt, runFrom last (ungroupBody body) = runFrom last body
  | [] => rfl
  | statement :: body => by
      rw [ungroupBody, runFrom, runFrom, statement.run_ungroup]
      congr
      funext value
      exact runFrom_ungroup value body

end

/-- A program without its parentheses is the same run: from every state it has the same value,
reports the same errors in the same order, and leaves the same heap and the same variables in every
frame. -/
theorem evaluate_ungroupBody (program : List Stmt) :
    (nodesOfBody (ungroupBody program)).any Node.isGroup = false ∧
      ∀ state : State,
        let ran := evaluate program state
        let ran' := evaluate (ungroupBody program) state
        ran'.1 = ran.1 ∧ ran'.2.errors = ran.2.errors ∧ ran'.2.heap = ran.2.heap ∧
          ran'.2.scope = ran.2.scope := by
  constructor
  · rw [List.any_eq_false]
    intro node member
    rw [nodesOfBody_ungroup program node member]
    exact Bool.false_ne_true
  · intro state ran ran'
    have same : ran' = ran := by
      simp only [ran, ran', evaluate, runFrom_ungroup]
    rw [same]
    exact ⟨rfl, rfl, rfl, rfl⟩

end Descriptor
