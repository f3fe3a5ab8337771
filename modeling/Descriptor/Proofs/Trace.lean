import Descriptor.Proofs.Run

/-!
# Which nodes a run evaluates

The nodes of a program are its expressions and statements, at any depth.  They are listed in the
order in which a run that leaves none of them out comes to its end with them: a node stands behind
the nodes that it is made of.  The position in this list tells a node from others of the same form.

`trace` evaluates a program like `evaluate` does and also lists its visits: each node that was
evaluated, with the state that it left.  It is the same run, `run_trace`, and the visits go through
the nodes in their order, each of them once at most.  What single nodes do to the state therefore
adds up to what the program does: `Accounts.evaluate`.
-/

namespace Descriptor

/-! ## Nodes -/

/-- An expression or a statement of a program. -/
inductive Node where
  | expression (expression : Expr)
  | statement (statement : Stmt)

mutual

/-- The nodes of an expression, each behind its parts in the order of their evaluation. -/
def Expr.nodes : Expr → List Node
  | .literal value => [.expression (.literal value)]
  | .variable name => [.expression (.variable name)]
  | .group inner => inner.nodes ++ [.expression (.group inner)]
  | .array elements => nodesOfElements elements ++ [.expression (.array elements)]
  | .object properties => nodesOfProperties properties ++ [.expression (.object properties)]
  | .unary operator token right =>
      right.nodes ++ [.expression (.unary operator token right)]
  | .binary left operator token right =>
      left.nodes ++ right.nodes ++ [.expression (.binary left operator token right)]
  | .get object accessor =>
      object.nodes ++ accessor.nodes ++ [.expression (.get object accessor)]
  | .assign target value => value.nodes ++ [.expression (.assign target value)]
  | .set object accessor value =>
      object.nodes ++ accessor.nodes ++ value.nodes ++
        [.expression (.set object accessor value)]

/-- The nodes of the index of an access. -/
def Accessor.nodes : Accessor → List Node
  | .field _ => []
  | .element _ index => index.nodes

/-- The nodes of array elements. -/
def nodesOfElements : List Expr → List Node
  | [] => []
  | element :: elements => element.nodes ++ nodesOfElements elements

/-- The nodes of object properties. -/
def nodesOfProperties : List (Token × Expr) → List Node
  | [] => []
  | (_, value) :: properties => value.nodes ++ nodesOfProperties properties

end

mutual

/-- The nodes of a statement, each behind its parts in the order of their evaluation. -/
def Stmt.nodes : Stmt → List Node
  | .block body => nodesOfBody body ++ [.statement (.block body)]
  | .expression expression => expression.nodes ++ [.statement (.expression expression)]
  | .branch condition positive none =>
      condition.nodes ++ positive.nodes ++ [.statement (.branch condition positive none)]
  | .branch condition positive (some negative) =>
      condition.nodes ++ positive.nodes ++ negative.nodes ++
        [.statement (.branch condition positive (some negative))]
  | .choice condition positive none =>
      condition.nodes ++ positive.nodes ++ [.statement (.choice condition positive none)]
  | .choice condition positive (some negative) =>
      condition.nodes ++ positive.nodes ++ negative.nodes ++
        [.statement (.choice condition positive (some negative))]
  | .declaration name none => [.statement (.declaration name none)]
  | .declaration name (some initializer) =>
      initializer.nodes ++ [.statement (.declaration name (some initializer))]

/-- The nodes of a list of statements. -/
def nodesOfBody : List Stmt → List Node
  | [] => []
  | statement :: body => statement.nodes ++ nodesOfBody body

end

/-- A node and its position among the nodes of a program. -/
abbrev Occurrence := Node × Nat

/-- The evaluation of a node, which is complete in `state`. -/
structure Visit where
  occurrence : Occurrence
  state : State

/-! ## Runs that list their visits -/

/-- A run with the visits that it makes when it begins in a given state. -/
structure Traced (α : Type) where
  run : Run α
  visits : State → List Visit

namespace Traced

variable {α β : Type}

instance : Monad Traced where
  pure a := ⟨pure a, fun _ => []⟩
  bind first next :=
    ⟨first.run >>= fun a => (next a).run, fun state =>
      first.visits state ++ (next (first.run state).1).visits (first.run state).2⟩

/-- What a node does itself, when its parts have been evaluated.  This completes the visit. -/
def operation (occurrence : Occurrence) (run : Run α) : Traced α :=
  ⟨run, fun state => [⟨occurrence, (run state).2⟩]⟩

/-- Runs `body` with a new innermost frame, which is dropped again. -/
def inNewFrame (body : Traced α) : Traced α :=
  ⟨Run.inNewFrame body.run, fun state =>
    body.visits { state with scope := .ofList false [] :: state.scope }⟩

@[simp]
theorem run_pure (a : α) : (pure a : Traced α).run = pure a :=
  rfl

@[simp]
theorem run_bind (first : Traced α) (next : α → Traced β) :
    (first >>= next).run = first.run >>= fun a => (next a).run :=
  rfl

@[simp]
theorem run_operation (occurrence : Occurrence) (run : Run α) :
    (operation occurrence run).run = run :=
  rfl

@[simp]
theorem run_inNewFrame (body : Traced α) : (inNewFrame body).run = Run.inNewFrame body.run :=
  rfl

end Traced

mutual

/-- Evaluates an expression whose nodes begin at position `first`, and lists the visits. -/
def Expr.trace (purpose : Purpose) (first : Nat) : Expr → Traced Binding
  | .literal literal =>
      .operation (.expression (.literal literal), first) do
        return ⟨literal.toValue, false⟩
  | .variable name =>
      .operation (.expression (.variable name), first) do
        let binding ← Run.read name
        return ⟨binding.value, purpose == .place && binding.readonly⟩
  | .group inner => do
      let binding ← inner.trace purpose first
      .operation (.expression (.group inner), first + inner.nodes.length) do
        return binding
  | .array elements => do
      let values ← traceElements first elements
      .operation (.expression (.array elements), first + (nodesOfElements elements).length) do
        return ⟨← Run.alloc (.array values), false⟩
  | .object properties => do
      let entries ← traceProperties first properties
      .operation (.expression (.object properties),
          first + (nodesOfProperties properties).length) do
        return ⟨← Run.alloc (.object (.ofList entries)), false⟩
  | .unary operator token right => do
      let rightBinding ← right.trace .value first
      .operation (.expression (.unary operator token right), first + right.nodes.length) do
        return ⟨operator.apply (← Run.heap) rightBinding.value, false⟩
  | .binary left operator token right => do
      let leftBinding ← left.trace .value first
      let own := first + (left.nodes ++ right.nodes).length
      if operator.isDecidedBy leftBinding.value then
        .operation (.expression (.binary left operator token right), own) do
          return ⟨leftBinding.value, false⟩
      else
        let rightBinding ← right.trace .value (first + left.nodes.length)
        .operation (.expression (.binary left operator token right), own) do
          return ⟨operator.apply (← Run.heap) leftBinding.value rightBinding.value, false⟩
  | .get object accessor => do
      let holder ← object.trace purpose first
      let key ← accessor.traceKey (first + object.nodes.length)
      .operation (.expression (.get object accessor),
          first + (object.nodes ++ accessor.nodes).length) do
        return ⟨← Run.property accessor.token holder.value key, holder.readonly⟩
  | .assign target value => do
      let assigned ← value.trace .value first
      .operation (.expression (.assign target value), first + value.nodes.length) do
        return ⟨← Run.assign target assigned.value, false⟩
  | .set object accessor value => do
      let holder ← object.trace .place first
      let key ← accessor.traceKey (first + object.nodes.length)
      let written ← value.trace .value (first + (object.nodes ++ accessor.nodes).length)
      .operation (.expression (.set object accessor value),
          first + (object.nodes ++ accessor.nodes ++ value.nodes).length) do
        return ⟨← Run.setProperty accessor.token holder key written.value, false⟩

/-- Evaluates the key of an access and lists the visits. -/
def Accessor.traceKey (first : Nat) : Accessor → Traced Key
  | .field name => return .named name.lexeme
  | .element _ index => return .indexed (← index.trace .value first).value

/-- Evaluates the elements of an array in order and lists the visits. -/
def traceElements (first : Nat) : List Expr → Traced (List Value)
  | [] => return []
  | element :: elements => do
      let value ← element.trace .value first
      return value.value :: (← traceElements (first + element.nodes.length) elements)

/-- Evaluates the properties of an object in order and lists the visits. -/
def traceProperties (first : Nat) : List (Token × Expr) → Traced (List (String × Value))
  | [] => return []
  | (name, expression) :: properties => do
      let value ← expression.trace .value first
      return (name.lexeme, value.value) ::
        (← traceProperties (first + expression.nodes.length) properties)

end

mutual

/-- Evaluates a statement whose nodes begin at position `first`, and lists the visits. -/
def Stmt.trace (first : Nat) : Stmt → Traced Value
  | .block body => do
      let last ← Traced.inNewFrame (traceFrom first .undefined body)
      .operation (.statement (.block body), first + (nodesOfBody body).length) do
        return last
  | .expression expression => do
      let binding ← expression.trace .value first
      .operation (.statement (.expression expression), first + expression.nodes.length) do
        return binding.value
  | .branch condition positive none => do
      let decision ← condition.trace .value first
      let own := first + (condition.nodes ++ positive.nodes).length
      if decision.value.toBool then
        let value ← positive.trace (first + condition.nodes.length)
        .operation (.statement (.branch condition positive none), own) do
          return value
      else
        .operation (.statement (.branch condition positive none), own) do
          return .undefined
  | .branch condition positive (some negative) => do
      let decision ← condition.trace .value first
      let own := first + (condition.nodes ++ positive.nodes ++ negative.nodes).length
      if decision.value.toBool then
        let value ← positive.trace (first + condition.nodes.length)
        .operation (.statement (.branch condition positive (some negative)), own) do
          return value
      else
        let value ← negative.trace (first + (condition.nodes ++ positive.nodes).length)
        .operation (.statement (.branch condition positive (some negative)), own) do
          return value
  | .choice condition positive none => do
      let decision ← condition.trace .value first
      let own := first + (condition.nodes ++ positive.nodes).length
      if decision.value.toBool then
        let binding ← positive.trace .value (first + condition.nodes.length)
        .operation (.statement (.choice condition positive none), own) do
          return binding.value
      else
        .operation (.statement (.choice condition positive none), own) do
          return .undefined
  | .choice condition positive (some negative) => do
      let decision ← condition.trace .value first
      let own := first + (condition.nodes ++ positive.nodes ++ negative.nodes).length
      if decision.value.toBool then
        let binding ← positive.trace .value (first + condition.nodes.length)
        .operation (.statement (.choice condition positive (some negative)), own) do
          return binding.value
      else
        let binding ← negative.trace .value (first + (condition.nodes ++ positive.nodes).length)
        .operation (.statement (.choice condition positive (some negative)), own) do
          return binding.value
  | .declaration name none =>
      .operation (.statement (.declaration name none), first) do
        Run.define name.lexeme .undefined
        return .undefined
  | .declaration name (some initializer) => do
      let binding ← initializer.trace .value first
      .operation (.statement (.declaration name (some initializer)),
          first + initializer.nodes.length) do
        Run.define name.lexeme binding.value
        return binding.value

/-- Evaluates statements in order and lists the visits. -/
def traceFrom (first : Nat) (last : Value) : List Stmt → Traced Value
  | [] => return last
  | statement :: body => do
      traceFrom (first + statement.nodes.length) (← statement.trace first) body

end

/-- Evaluates a program and lists the visits. -/
def trace (program : List Stmt) : Traced Value :=
  .inNewFrame (traceFrom 0 .undefined program)

/-! ## The same run -/

open Traced

theorem Traced.run_ite {α : Type} {condition : Prop} [Decidable condition]
    (positive negative : Traced α) :
    (if condition then positive else negative).run =
      if condition then positive.run else negative.run :=
  apply_ite Traced.run condition positive negative

mutual

/-- Listing the visits does not change what an expression does. -/
theorem Expr.run_trace (purpose : Purpose) :
    ∀ (expression : Expr) (first : Nat), (expression.trace purpose first).run =
      expression.run purpose
  | .literal _, _ => rfl
  | .variable _, _ => rfl
  | .group inner, first => by
      simp only [Expr.trace, Expr.run, run_bind, run_operation, inner.run_trace purpose first,
        bind_pure]
  | .array elements, first => by
      simp only [Expr.trace, Expr.run, run_bind, run_operation, run_traceElements elements first]
  | .object properties, first => by
      simp only [Expr.trace, Expr.run, run_bind, run_operation,
        run_traceProperties properties first]
  | .unary _ _ right, first => by
      simp only [Expr.trace, Expr.run, run_bind, run_operation, right.run_trace .value first]
  | .binary left _ _ right, first => by
      simp only [Expr.trace, Expr.run, run_bind, run_operation, run_ite,
        left.run_trace .value first, right.run_trace .value (first + left.nodes.length)]
  | .get object accessor, first => by
      simp only [Expr.trace, Expr.run, run_bind, run_operation, object.run_trace purpose first,
        accessor.run_traceKey (first + object.nodes.length)]
  | .assign _ value, first => by
      simp only [Expr.trace, Expr.run, run_bind, run_operation, value.run_trace .value first]
  | .set object accessor value, first => by
      simp only [Expr.trace, Expr.run, run_bind, run_operation, object.run_trace .place first,
        accessor.run_traceKey (first + object.nodes.length), value.run_trace .value]

/-- Listing the visits does not change the key of an access. -/
theorem Accessor.run_traceKey :
    ∀ (accessor : Accessor) (first : Nat), (accessor.traceKey first).run = accessor.runKey
  | .field _, _ => rfl
  | .element _ index, first => by
      simp only [Accessor.traceKey, Accessor.runKey, run_bind, run_pure,
        index.run_trace .value first]

theorem run_traceElements :
    ∀ (elements : List Expr) (first : Nat), (traceElements first elements).run =
      runElements elements
  | [], _ => rfl
  | element :: elements, first => by
      simp only [traceElements, runElements, run_bind, run_pure, element.run_trace .value first,
        run_traceElements elements (first + element.nodes.length)]

theorem run_traceProperties :
    ∀ (properties : List (Token × Expr)) (first : Nat), (traceProperties first properties).run =
      runProperties properties
  | [], _ => rfl
  | (_, value) :: properties, first => by
      simp only [traceProperties, runProperties, run_bind, run_pure, value.run_trace .value first,
        run_traceProperties properties (first + value.nodes.length)]

end

mutual

/-- Listing the visits does not change what a statement does. -/
theorem Stmt.run_trace :
    ∀ (statement : Stmt) (first : Nat), (statement.trace first).run = statement.run
  | .block body, first => by
      simp only [Stmt.trace, Stmt.run, run_bind, run_operation, run_inNewFrame,
        run_traceFrom body first, bind_pure]
  | .expression expression, first => by
      simp only [Stmt.trace, Stmt.run, Expr.evaluate, run_bind, run_operation,
        expression.run_trace .value first]
  | .branch condition positive none, first => by
      simp only [Stmt.trace, Stmt.run, Expr.evaluate, run_bind, run_operation, run_ite,
        condition.run_trace .value first, positive.run_trace]
      rfl
  | .branch condition positive (some negative), first => by
      simp only [Stmt.trace, Stmt.run, Expr.evaluate, run_bind, run_operation, run_ite,
        condition.run_trace .value first, positive.run_trace, negative.run_trace]
      rfl
  | .choice condition positive none, first => by
      simp only [Stmt.trace, Stmt.run, Expr.evaluate, run_bind, run_operation, run_ite,
        condition.run_trace .value first, positive.run_trace .value]
      rfl
  | .choice condition positive (some negative), first => by
      simp only [Stmt.trace, Stmt.run, Expr.evaluate, run_bind, run_operation, run_ite,
        condition.run_trace .value first, positive.run_trace .value, negative.run_trace .value]
      rfl
  | .declaration _ none, _ => rfl
  | .declaration _ (some initializer), first => by
      simp only [Stmt.trace, Stmt.run, Expr.evaluate, run_bind, run_operation,
        initializer.run_trace .value first]
      rfl

/-- Listing the visits does not change what a list of statements does. -/
theorem run_traceFrom :
    ∀ (body : List Stmt) (first : Nat) (last : Value), (traceFrom first last body).run =
      runFrom last body
  | [], _, _ => rfl
  | statement :: body, first, _ => by
      simp only [traceFrom, runFrom, run_bind, statement.run_trace first,
        run_traceFrom body (first + statement.nodes.length)]

end

/-- Listing the visits does not change what a program does. -/
theorem run_trace (program : List Stmt) : (trace program).run = evaluate program := by
  rw [trace, evaluate, run_inNewFrame, run_traceFrom]

/-! ## What visits add up to -/

section Accounts

variable {R : List Visit → State → State → Prop} {α β : Type}

/-- The visit of a node is accounted for by what the node does itself. -/
def Operates (R : List Visit → State → State → Prop) (node : Node) (run : Run α) : Prop :=
  ∀ position state, R [⟨(node, position), (run state).2⟩] state (run state).2

/-- A relation between the states before and after some visits that adds up along the visits, does
not depend on variables, and accounts for what each kind of node does itself. -/
structure Accounts (R : List Visit → State → State → Prop) : Prop where
  nil : ∀ state, R [] state state
  append : ∀ {visits visits' first second third}, R visits first second →
    R visits' second third → R (visits ++ visits') first third
  rescope : ∀ {visits before after} (scope scope' : Scope), R visits before after →
    R visits { before with scope := scope } { after with scope := scope' }
  idle : ∀ node, Operates R node (pure ())
  read : ∀ name, Operates R (.expression (.variable name)) (Run.read name)
  assign : ∀ target expression value,
    Operates R (.expression (.assign target expression)) (Run.assign target value)
  array : ∀ node elements, Operates R node (Run.alloc (.array elements))
  object : ∀ node entries, Operates R node (Run.alloc (.object (.ofList entries)))
  property : ∀ object accessor holder key,
    Operates R (.expression (.get object accessor)) (Run.property accessor.token holder key)
  setProperty : ∀ object accessor expression target key value,
    Operates R (.expression (.set object accessor expression))
      (Run.setProperty accessor.token target key value)

/-- Declaring a variable changes no more than the variables. -/
theorem Accounts.define (accounts : Accounts R) (node : Node) (name : String) (value : Value) :
    Operates R node (Run.define name value) := by
  intro position state
  let after := (Run.define name value state).2
  have unchanged : R [⟨(node, position), after⟩] after after := accounts.idle node position after
  have defined := accounts.rescope state.scope after.scope unchanged
  exact defined

namespace Traced

/-- The visits are among the given occurrences, in their order, and they are accounted for. -/
def Accounted (R : List Visit → State → State → Prop) (occurrences : List Occurrence)
    (traced : Traced α) : Prop :=
  ∀ state, ((traced.visits state).map Visit.occurrence).Sublist occurrences ∧
    R (traced.visits state) state (traced.run state).2

theorem Accounted.mono {occurrences more : List Occurrence} {traced : Traced α}
    (accounted : Accounted R occurrences traced) (among : occurrences.Sublist more) :
    Accounted R more traced :=
  fun state => ⟨(accounted state).1.trans among, (accounted state).2⟩

end Traced

theorem Accounts.pure (accounts : Accounts R) (a : α) : Accounted R [] (pure a : Traced α) :=
  fun state => ⟨List.Sublist.refl _, accounts.nil state⟩

theorem Accounts.bind (accounts : Accounts R) {occurrences occurrences' : List Occurrence}
    {first : Traced α} {next : α → Traced β} (before : Accounted R occurrences first)
    (after : ∀ a, Accounted R occurrences' (next a)) :
    Accounted R (occurrences ++ occurrences') (first >>= next) := by
  intro state
  rcases before state with ⟨among, accounted⟩
  rcases after (first.run state).1 (first.run state).2 with ⟨among', accounted'⟩
  refine ⟨?_, accounts.append accounted accounted'⟩
  have visits : (first >>= next).visits state =
      first.visits state ++ (next (first.run state).1).visits (first.run state).2 := rfl
  rw [visits, List.map_append]
  exact among.append among'

/-- What a node does with the result of its operation does not matter. -/
theorem Operates.accounted {node : Node} {run : Run α} {run' : Run β}
    (operates : Operates R node run) (same : ∀ state, (run' state).2 = (run state).2)
    (position : Nat) : Accounted R [(node, position)] (.operation (node, position) run') := by
  intro state
  refine ⟨List.Sublist.refl _, ?_⟩
  have accounted := operates position state
  rw [← same] at accounted
  exact accounted

/-- A node that leaves the state as it is has done nothing itself. -/
theorem Accounts.quiet (accounts : Accounts R) {node : Node} {run : Run α}
    (unchanged : ∀ state, (run state).2 = state) (position : Nat) :
    Accounted R [(node, position)] (.operation (node, position) run) :=
  (accounts.idle node).accounted unchanged position

/-- Such a node may also leave out the nodes before it. -/
theorem Accounts.quiet_behind (accounts : Accounts R) (leftOut : List Occurrence) {node : Node}
    {run : Run α} (unchanged : ∀ state, (run state).2 = state) (position : Nat) :
    Accounted R (leftOut ++ [(node, position)]) (.operation (node, position) run) :=
  (accounts.quiet unchanged position).mono (List.sublist_append_right _ _)

theorem Accounts.inNewFrame (accounts : Accounts R) {occurrences : List Occurrence}
    {body : Traced α} (inside : Accounted R occurrences body) :
    Accounted R occurrences (.inNewFrame body) := by
  intro state
  rcases inside { state with scope := .ofList false [] :: state.scope } with ⟨among, accounted⟩
  have dropped := accounts.rescope state.scope (Run.inNewFrame body.run state).2.scope accounted
  exact ⟨among, dropped⟩

mutual

/-- An expression visits its nodes in their order, each once at most, and does what they add up
to. -/
theorem Expr.accounted_trace (accounts : Accounts R) (purpose : Purpose) :
    ∀ (expression : Expr) (first : Nat),
      Accounted R (expression.nodes.zipIdx first) (expression.trace purpose first)
  | .literal _, first => accounts.quiet (fun _ => rfl) first
  | .variable name, first => (accounts.read name).accounted (fun _ => rfl) first
  | .group inner, first => by
      rw [Expr.nodes, List.zipIdx_append]
      exact accounts.bind (inner.accounted_trace accounts purpose first) fun _ =>
        accounts.quiet (fun _ => rfl) _
  | .array elements, first => by
      rw [Expr.nodes, List.zipIdx_append]
      exact accounts.bind (accounted_traceElements accounts elements first) fun _ =>
        (accounts.array _ _).accounted (fun _ => rfl) _
  | .object properties, first => by
      rw [Expr.nodes, List.zipIdx_append]
      exact accounts.bind (accounted_traceProperties accounts properties first) fun _ =>
        (accounts.object _ _).accounted (fun _ => rfl) _
  | .unary _ _ right, first => by
      rw [Expr.nodes, List.zipIdx_append]
      exact accounts.bind (right.accounted_trace accounts .value first) fun _ =>
        accounts.quiet (fun _ => rfl) _
  | .binary left operator _ right, first => by
      rw [Expr.nodes, List.zipIdx_append, List.zipIdx_append, List.append_assoc]
      refine accounts.bind (left.accounted_trace accounts .value first) fun leftBinding => ?_
      -- An operand that decides the result leaves out the nodes of the other one.
      split
      · exact accounts.quiet_behind _ (fun _ => rfl) _
      · exact accounts.bind (right.accounted_trace accounts .value _) fun _ =>
          accounts.quiet (fun _ => rfl) _
  | .get object accessor, first => by
      rw [Expr.nodes, List.zipIdx_append, List.zipIdx_append, List.append_assoc]
      refine accounts.bind (object.accounted_trace accounts purpose first) fun _ => ?_
      exact accounts.bind (accessor.accounted_traceKey accounts _) fun _ =>
        (accounts.property object accessor _ _).accounted (fun _ => rfl) _
  | .assign target value, first => by
      rw [Expr.nodes, List.zipIdx_append]
      exact accounts.bind (value.accounted_trace accounts .value first) fun _ =>
        (accounts.assign target value _).accounted (fun _ => rfl) _
  | .set object accessor value, first => by
      rw [Expr.nodes, List.zipIdx_append, List.zipIdx_append, List.zipIdx_append,
        List.append_assoc, List.append_assoc]
      refine accounts.bind (object.accounted_trace accounts .place first) fun _ => ?_
      refine accounts.bind (accessor.accounted_traceKey accounts _) fun _ => ?_
      exact accounts.bind (value.accounted_trace accounts .value _) fun _ =>
        (accounts.setProperty object accessor value _ _ _).accounted (fun _ => rfl) _

/-- The key of an access does what the nodes of its index add up to. -/
theorem Accessor.accounted_traceKey (accounts : Accounts R) :
    ∀ (accessor : Accessor) (first : Nat),
      Accounted R (accessor.nodes.zipIdx first) (accessor.traceKey first)
  | .field name, _ => accounts.pure (Key.named name.lexeme)
  | .element _ index, first => by
      rw [Accessor.nodes, ← List.append_nil (index.nodes.zipIdx first)]
      exact accounts.bind (index.accounted_trace accounts .value first) fun _ => accounts.pure _

/-- Array elements do what their nodes add up to. -/
theorem accounted_traceElements (accounts : Accounts R) :
    ∀ (elements : List Expr) (first : Nat),
      Accounted R ((nodesOfElements elements).zipIdx first) (traceElements first elements)
  | [], _ => accounts.pure []
  | element :: elements, first => by
      rw [nodesOfElements, List.zipIdx_append]
      refine accounts.bind (element.accounted_trace accounts .value first) fun _ => ?_
      rw [← List.append_nil ((nodesOfElements elements).zipIdx _)]
      exact accounts.bind (accounted_traceElements accounts elements _) fun _ => accounts.pure _

/-- Object properties do what their nodes add up to. -/
theorem accounted_traceProperties (accounts : Accounts R) :
    ∀ (properties : List (Token × Expr)) (first : Nat),
      Accounted R ((nodesOfProperties properties).zipIdx first)
        (traceProperties first properties)
  | [], _ => accounts.pure []
  | (_, value) :: properties, first => by
      rw [nodesOfProperties, List.zipIdx_append]
      refine accounts.bind (value.accounted_trace accounts .value first) fun _ => ?_
      rw [← List.append_nil ((nodesOfProperties properties).zipIdx _)]
      exact accounts.bind (accounted_traceProperties accounts properties _) fun _ =>
        accounts.pure _

end

mutual

/-- A statement visits its nodes in their order, each once at most, and does what they add up
to. -/
theorem Stmt.accounted_trace (accounts : Accounts R) :
    ∀ (statement : Stmt) (first : Nat),
      Accounted R (statement.nodes.zipIdx first) (statement.trace first)
  | .block body, first => by
      rw [Stmt.nodes, List.zipIdx_append]
      exact accounts.bind (accounts.inNewFrame (accounted_traceFrom accounts body first _))
        fun _ => accounts.quiet (fun _ => rfl) _
  | .expression expression, first => by
      rw [Stmt.nodes, List.zipIdx_append]
      exact accounts.bind (expression.accounted_trace accounts .value first) fun _ =>
        accounts.quiet (fun _ => rfl) _
  | .branch condition positive none, first => by
      rw [Stmt.nodes, List.zipIdx_append, List.zipIdx_append, List.append_assoc]
      refine accounts.bind (condition.accounted_trace accounts .value first) fun _ => ?_
      split
      · exact accounts.bind (positive.accounted_trace accounts _) fun _ =>
          accounts.quiet (fun _ => rfl) _
      · exact accounts.quiet_behind _ (fun _ => rfl) _
  | .branch condition positive (some negative), first => by
      rw [Stmt.nodes, List.zipIdx_append, List.zipIdx_append, List.zipIdx_append,
        List.append_assoc, List.append_assoc]
      refine accounts.bind (condition.accounted_trace accounts .value first) fun _ => ?_
      split
      · refine accounts.bind (positive.accounted_trace accounts _) fun _ => ?_
        exact accounts.quiet_behind _ (fun _ => rfl) _
      · refine Accounted.mono ?_ (List.sublist_append_right _ _)
        exact accounts.bind (negative.accounted_trace accounts _) fun _ =>
          accounts.quiet (fun _ => rfl) _
  | .choice condition positive none, first => by
      rw [Stmt.nodes, List.zipIdx_append, List.zipIdx_append, List.append_assoc]
      refine accounts.bind (condition.accounted_trace accounts .value first) fun _ => ?_
      split
      · exact accounts.bind (positive.accounted_trace accounts .value _) fun _ =>
          accounts.quiet (fun _ => rfl) _
      · exact accounts.quiet_behind _ (fun _ => rfl) _
  | .choice condition positive (some negative), first => by
      rw [Stmt.nodes, List.zipIdx_append, List.zipIdx_append, List.zipIdx_append,
        List.append_assoc, List.append_assoc]
      refine accounts.bind (condition.accounted_trace accounts .value first) fun _ => ?_
      split
      · refine accounts.bind (positive.accounted_trace accounts .value _) fun _ => ?_
        exact accounts.quiet_behind _ (fun _ => rfl) _
      · refine Accounted.mono ?_ (List.sublist_append_right _ _)
        exact accounts.bind (negative.accounted_trace accounts .value _) fun _ =>
          accounts.quiet (fun _ => rfl) _
  | .declaration name none, first =>
      (accounts.define _ name.lexeme .undefined).accounted (fun _ => rfl) first
  | .declaration name (some initializer), first => by
      rw [Stmt.nodes, List.zipIdx_append]
      exact accounts.bind (initializer.accounted_trace accounts .value first) fun binding =>
        (accounts.define _ name.lexeme binding.value).accounted (fun _ => rfl) _

/-- A list of statements does what its nodes add up to. -/
theorem accounted_traceFrom (accounts : Accounts R) :
    ∀ (body : List Stmt) (first : Nat) (last : Value),
      Accounted R ((nodesOfBody body).zipIdx first) (traceFrom first last body)
  | [], _, last => accounts.pure last
  | statement :: body, first, _ => by
      rw [nodesOfBody, List.zipIdx_append]
      exact accounts.bind (statement.accounted_trace accounts first) fun _ =>
        accounted_traceFrom accounts body _ _

end

/-- A program visits its nodes in their order, each once at most, and does what they add up to. -/
theorem Accounts.evaluate (accounts : Accounts R) (program : List Stmt) (state : State) :
    (((trace program).visits state).map Visit.occurrence).Sublist (nodesOfBody program).zipIdx ∧
      R ((trace program).visits state) state (Descriptor.evaluate program state).2 := by
  rw [← run_trace]
  exact accounts.inNewFrame (accounted_traceFrom accounts program 0 .undefined) state

end Accounts

end Descriptor
