import Descriptor.Evaluation

/-!
# What every run keeps

A property of runs is stated as a relation between the state before and the state after.  If the
relation is a preorder that single operations keep, then so do all expressions, and all
statements.  Both inductions over the syntax are done here, once for all such relations.

Property writes and declarations are left to the caller, as a condition on the write targets and
on the declared names that occur in the syntax: some relations are kept by all of them, others
only by programs that avoid some.
-/

namespace Descriptor

/-! ## Write targets and declared names -/

mutual

/-- The objects that the property writes in an expression write to, at any depth. -/
def Expr.targets : Expr → List Expr
  | .literal _ => []
  | .variable _ => []
  | .group inner => inner.targets
  | .array elements => targetsOfElements elements
  | .object properties => targetsOfProperties properties
  | .unary _ _ right => right.targets
  | .binary left _ _ right => left.targets ++ right.targets
  | .get object accessor => object.targets ++ accessor.targets
  | .assign _ value => value.targets
  | .set object accessor value => object :: (object.targets ++ accessor.targets ++ value.targets)

/-- The write targets in the index of an access. -/
def Accessor.targets : Accessor → List Expr
  | .field _ => []
  | .element _ index => index.targets

/-- The write targets in array elements. -/
def targetsOfElements : List Expr → List Expr
  | [] => []
  | element :: elements => element.targets ++ targetsOfElements elements

/-- The write targets in object properties. -/
def targetsOfProperties : List (Token × Expr) → List Expr
  | [] => []
  | (_, value) :: properties => value.targets ++ targetsOfProperties properties

end

mutual

/-- The write targets in a statement, at any depth. -/
def Stmt.targets : Stmt → List Expr
  | .block body => targetsOfBody body
  | .expression expression => expression.targets
  | .branch condition positive none => condition.targets ++ positive.targets
  | .branch condition positive (some negative) =>
      condition.targets ++ positive.targets ++ negative.targets
  | .choice condition positive none => condition.targets ++ positive.targets
  | .choice condition positive (some negative) =>
      condition.targets ++ positive.targets ++ negative.targets
  | .declaration _ none => []
  | .declaration _ (some initializer) => initializer.targets

/-- The write targets in a list of statements. -/
def targetsOfBody : List Stmt → List Expr
  | [] => []
  | statement :: body => statement.targets ++ targetsOfBody body

end

mutual

/-- The names that a statement declares, at any depth. -/
def Stmt.declared : Stmt → List Token
  | .block body => declaredInBody body
  | .expression _ => []
  | .branch _ positive none => positive.declared
  | .branch _ positive (some negative) => positive.declared ++ negative.declared
  | .choice _ _ _ => []
  | .declaration name _ => [name]

/-- The names that a list of statements declares. -/
def declaredInBody : List Stmt → List Token
  | [] => []
  | statement :: body => statement.declared ++ declaredInBody body

end

/-! ## Relations that runs keep -/

namespace Run

variable {α β : Type} {R : State → State → Prop}

/-- Every run relates the state before it to the state after it. -/
def Keeps (R : State → State → Prop) (run : Run α) : Prop :=
  ∀ state, R state (run state).2

/-- A preorder of states that every single operation keeps, writes and declarations apart. -/
structure Steady (R : State → State → Prop) : Prop where
  refl : ∀ state, R state state
  trans : ∀ {first second third}, R first second → R second third → R first third
  read : ∀ name, Keeps R (Run.read name)
  assign : ∀ name value, Keeps R (Run.assign name value)
  alloc : ∀ container, Keeps R (Run.alloc container)
  property : ∀ token object key, Keeps R (Run.property token object key)

@[simp]
theorem run_pure (a : α) (state : State) : (pure a : Run α) state = (a, state) :=
  rfl

@[simp]
theorem run_bind (run : Run α) (next : α → Run β) (state : State) :
    (run >>= next) state = next (run state).1 (run state).2 :=
  rfl

theorem Steady.keeps_pure (steady : Steady R) (a : α) : Keeps R (pure a : Run α) :=
  steady.refl

theorem Steady.keeps_heap (steady : Steady R) : Keeps R Run.heap :=
  steady.refl

theorem Steady.keeps_bind (steady : Steady R) {run : Run α} {next : α → Run β}
    (first : Keeps R run) (second : ∀ a, Keeps R (next a)) : Keeps R (run >>= next) := by
  intro state
  exact steady.trans (first state) (second (run state).1 (run state).2)

end Run

open Run

section Expressions

variable {R : State → State → Prop} {Allowed : Expr → Prop}

/-- The condition under which writes keep a relation: a write does, if its target is allowed and
its three parts keep the relation. -/
def Run.Writes (R : State → State → Prop) (Allowed : Expr → Prop) : Prop :=
  ∀ object accessor value, Allowed object → Keeps R (object.run .place) →
    Keeps R accessor.runKey → Keeps R (value.run .value) →
      ∀ purpose, Keeps R ((Expr.set object accessor value).run purpose)

mutual

/-- What single operations and allowed writes keep is kept by every expression. -/
theorem Expr.keeps_run (steady : Steady R) (writes : Run.Writes R Allowed) (purpose : Purpose) :
    ∀ expression : Expr, (∀ target ∈ expression.targets, Allowed target) →
      Keeps R (expression.run purpose)
  | .literal _, _ => by
      simp only [Expr.run]
      exact steady.keeps_pure _
  | .variable name, _ => by
      simp only [Expr.run]
      exact steady.keeps_bind (steady.read name) fun _ => steady.keeps_pure _
  | .group inner, allowed => by
      simp only [Expr.run]
      exact inner.keeps_run steady writes purpose allowed
  | .array elements, allowed => by
      simp only [Expr.run]
      apply steady.keeps_bind (keeps_runElements steady writes elements allowed)
      intro values
      exact steady.keeps_bind (steady.alloc _) fun _ => steady.keeps_pure _
  | .object properties, allowed => by
      simp only [Expr.run]
      refine steady.keeps_bind
        (keeps_runProperties steady writes properties allowed) fun entries => ?_
      exact steady.keeps_bind (steady.alloc _) fun _ => steady.keeps_pure _
  | .unary _ _ right, allowed => by
      simp only [Expr.run]
      apply steady.keeps_bind (right.keeps_run steady writes .value allowed)
      intro _
      exact steady.keeps_bind steady.keeps_heap fun _ => steady.keeps_pure _
  | .binary left operator _ right, allowed => by
      simp only [Expr.targets, List.forall_mem_append] at allowed
      simp only [Expr.run]
      apply steady.keeps_bind (left.keeps_run steady writes .value allowed.1)
      intro leftValue
      split
      · exact steady.keeps_pure _
      · apply steady.keeps_bind (right.keeps_run steady writes .value allowed.2)
        intro _
        exact steady.keeps_bind steady.keeps_heap fun _ => steady.keeps_pure _
  | .get object accessor, allowed => by
      simp only [Expr.targets, List.forall_mem_append] at allowed
      simp only [Expr.run]
      apply steady.keeps_bind (object.keeps_run steady writes purpose allowed.1)
      intro _
      apply steady.keeps_bind (accessor.keeps_runKey steady writes allowed.2)
      intro _
      exact steady.keeps_bind (steady.property _ _ _) fun _ => steady.keeps_pure _
  | .assign target value, allowed => by
      simp only [Expr.run]
      apply steady.keeps_bind (value.keeps_run steady writes .value allowed)
      intro _
      exact steady.keeps_bind (steady.assign target _) fun _ => steady.keeps_pure _
  | .set object accessor value, allowed => by
      simp only [Expr.targets, List.forall_mem_cons, List.forall_mem_append] at allowed
      rcases allowed with ⟨target, ⟨inObject, inAccessor⟩, inValue⟩
      exact writes object accessor value target
        (object.keeps_run steady writes .place inObject)
        (accessor.keeps_runKey steady writes inAccessor)
        (value.keeps_run steady writes .value inValue) purpose

/-- The key of an access keeps what its index keeps. -/
theorem Accessor.keeps_runKey (steady : Steady R) (writes : Run.Writes R Allowed) :
    ∀ accessor : Accessor, (∀ target ∈ accessor.targets, Allowed target) →
      Keeps R accessor.runKey
  | .field _, _ => by
      simp only [Accessor.runKey]
      exact steady.keeps_pure _
  | .element _ index, allowed => by
      simp only [Accessor.runKey]
      exact steady.keeps_bind (index.keeps_run steady writes .value allowed) fun _ =>
        steady.keeps_pure _

/-- Array elements keep what each of them keeps. -/
theorem keeps_runElements (steady : Steady R) (writes : Run.Writes R Allowed) :
    ∀ elements : List Expr, (∀ target ∈ targetsOfElements elements, Allowed target) →
      Keeps R (runElements elements)
  | [], _ => by
      simp only [runElements]
      exact steady.keeps_pure _
  | element :: elements, allowed => by
      simp only [targetsOfElements, List.forall_mem_append] at allowed
      simp only [runElements]
      apply steady.keeps_bind (element.keeps_run steady writes .value allowed.1)
      intro _
      exact steady.keeps_bind (keeps_runElements steady writes elements allowed.2) fun _ =>
        steady.keeps_pure _

/-- Object properties keep what the value of each of them keeps. -/
theorem keeps_runProperties (steady : Steady R) (writes : Run.Writes R Allowed) :
    ∀ properties : List (Token × Expr),
      (∀ target ∈ targetsOfProperties properties, Allowed target) →
        Keeps R (runProperties properties)
  | [], _ => by
      simp only [runProperties]
      exact steady.keeps_pure _
  | (_, value) :: properties, allowed => by
      simp only [targetsOfProperties, List.forall_mem_append] at allowed
      simp only [runProperties]
      apply steady.keeps_bind (value.keeps_run steady writes .value allowed.1)
      intro _
      exact steady.keeps_bind (keeps_runProperties steady writes properties allowed.2) fun _ =>
        steady.keeps_pure _

end

theorem Expr.keeps_evaluate (steady : Steady R) (writes : Run.Writes R Allowed)
    (expression : Expr) (allowed : ∀ target ∈ expression.targets, Allowed target) :
    Keeps R expression.evaluate :=
  steady.keeps_bind (expression.keeps_run steady writes .value allowed) fun _ =>
    steady.keeps_pure _

end Expressions

section Statements

variable {R S : State → State → Prop} {Allowed : Expr → Prop} {Declarable : Token → Prop}

/-- Inside a frame a weaker relation may hold, since declarations change the frame itself: a body
that keeps `S` keeps `R` around its frame. -/
structure Run.Framed (R S : State → State → Prop) (Declarable : Token → Prop) : Prop where
  trans : ∀ {first second third}, S first second → S second third → S first third
  of_outside : ∀ {before after}, R before after → S before after
  define : ∀ name value, Declarable name → Keeps S (Run.define name.lexeme value)
  frame : ∀ body : Run Value, Keeps S body → Keeps R (Run.inNewFrame body)

namespace Run

theorem Framed.keeps_of_outside (framed : Framed R S Declarable) {α : Type} {run : Run α}
    (keeps : Keeps R run) : Keeps S run := by
  intro state
  exact framed.of_outside (keeps state)

theorem Framed.keeps_bind (framed : Framed R S Declarable) {α β : Type} {run : Run α}
    {next : α → Run β} (first : Keeps S run) (second : ∀ a, Keeps S (next a)) :
    Keeps S (run >>= next) := by
  intro state
  exact framed.trans (first state) (second (run state).1 (run state).2)

end Run

mutual

/-- What expressions and allowed declarations keep is kept by every statement. -/
theorem Stmt.keeps_run (steady : Steady R) (writes : Run.Writes R Allowed)
    (framed : Framed R S Declarable) :
    ∀ statement : Stmt, (∀ target ∈ statement.targets, Allowed target) →
      (∀ name ∈ statement.declared, Declarable name) → Keeps S statement.run
  | .block body, allowed, declarable => by
      simp only [Stmt.run]
      exact framed.keeps_of_outside <|
        framed.frame _ (keeps_runFrom steady writes framed body allowed declarable .undefined)
  | .expression expression, allowed, _ => by
      simp only [Stmt.run]
      exact framed.keeps_of_outside (expression.keeps_evaluate steady writes allowed)
  | .branch condition positive none, allowed, declarable => by
      simp only [Stmt.targets, List.forall_mem_append] at allowed
      simp only [Stmt.run]
      refine framed.keeps_bind
        (framed.keeps_of_outside (condition.keeps_evaluate steady writes allowed.1)) fun _ => ?_
      split
      · exact positive.keeps_run steady writes framed allowed.2 declarable
      · exact framed.keeps_of_outside (steady.keeps_pure _)
  | .branch condition positive (some negative), allowed, declarable => by
      simp only [Stmt.targets, List.forall_mem_append] at allowed
      simp only [Stmt.declared, List.forall_mem_append] at declarable
      simp only [Stmt.run]
      refine framed.keeps_bind
        (framed.keeps_of_outside (condition.keeps_evaluate steady writes allowed.1.1)) fun _ => ?_
      split
      · exact positive.keeps_run steady writes framed allowed.1.2 declarable.1
      · exact negative.keeps_run steady writes framed allowed.2 declarable.2
  | .choice condition positive none, allowed, _ => by
      simp only [Stmt.targets, List.forall_mem_append] at allowed
      simp only [Stmt.run]
      refine framed.keeps_of_outside (steady.keeps_bind
        (condition.keeps_evaluate steady writes allowed.1) fun _ => ?_)
      split
      · exact positive.keeps_evaluate steady writes allowed.2
      · exact steady.keeps_pure _
  | .choice condition positive (some negative), allowed, _ => by
      simp only [Stmt.targets, List.forall_mem_append] at allowed
      simp only [Stmt.run]
      refine framed.keeps_of_outside (steady.keeps_bind
        (condition.keeps_evaluate steady writes allowed.1.1) fun _ => ?_)
      split
      · exact positive.keeps_evaluate steady writes allowed.1.2
      · exact negative.keeps_evaluate steady writes allowed.2
  | .declaration name none, _, declarable => by
      simp only [Stmt.declared, List.forall_mem_singleton] at declarable
      simp only [Stmt.run]
      apply framed.keeps_bind (framed.keeps_of_outside (steady.keeps_pure _))
      intro value
      exact framed.keeps_bind (framed.define name value declarable) fun _ =>
        framed.keeps_of_outside (steady.keeps_pure _)
  | .declaration name (some initializer), allowed, declarable => by
      simp only [Stmt.declared, List.forall_mem_singleton] at declarable
      simp only [Stmt.run]
      refine framed.keeps_bind
        (framed.keeps_of_outside (initializer.keeps_evaluate steady writes allowed))
        fun value => ?_
      exact framed.keeps_bind (framed.define name value declarable) fun _ =>
        framed.keeps_of_outside (steady.keeps_pure _)

/-- A list of statements keeps what each of them keeps. -/
theorem keeps_runFrom (steady : Steady R) (writes : Run.Writes R Allowed)
    (framed : Framed R S Declarable) :
    ∀ body : List Stmt, (∀ target ∈ targetsOfBody body, Allowed target) →
      (∀ name ∈ declaredInBody body, Declarable name) → ∀ last, Keeps S (runFrom last body)
  | [], _, _, _ => by
      simp only [runFrom]
      exact framed.keeps_of_outside (steady.keeps_pure _)
  | statement :: body, allowed, declarable, _ => by
      simp only [targetsOfBody, List.forall_mem_append] at allowed
      simp only [declaredInBody, List.forall_mem_append] at declarable
      simp only [runFrom]
      exact framed.keeps_bind (statement.keeps_run steady writes framed allowed.1 declarable.1)
        fun value => keeps_runFrom steady writes framed body allowed.2 declarable.2 value

end

/-- A program keeps, around its own frame, what its statements keep inside it. -/
theorem keeps_evaluate (steady : Steady R) (writes : Run.Writes R Allowed)
    (framed : Framed R S Declarable) (program : List Stmt)
    (allowed : ∀ target ∈ targetsOfBody program, Allowed target)
    (declarable : ∀ name ∈ declaredInBody program, Declarable name) :
    Keeps R (evaluate program) :=
  framed.frame _ (keeps_runFrom steady writes framed program allowed declarable .undefined)

end Statements

/-! ## What single operations leave alone -/

namespace Heap

@[simp]
theorem size_set (heap : Heap) (location : Location) (container : Container) :
    (heap.set location container).containers.size = heap.containers.size := by
  simp [set]

theorem get?_set_of_ne (heap : Heap) {location other : Location} (container : Container)
    (ne : location ≠ other) : (heap.set location container).get? other = heap.get? other := by
  simp [set, get?, Array.getElem?_setIfInBounds_ne ne]

theorem lt_size_of_get? {heap : Heap} {location : Location} {container : Container}
    (found : heap.get? location = some container) : location < heap.containers.size :=
  (Array.getElem?_eq_some_iff.mp found).1

theorem get?_set_self {heap : Heap} {location : Location} {old : Container}
    (found : heap.get? location = some old) (container : Container) :
    (heap.set location container).get? location = some container := by
  simp [set, get?, lt_size_of_get? found]

theorem get?_alloc_of_lt (heap : Heap) (container : Container) {location : Location}
    (old : location < heap.containers.size) :
    (heap.alloc container).2.get? location = heap.get? location := by
  simp [alloc, get?, Array.getElem?_push_lt, old]

theorem get?_alloc_self (heap : Heap) (container : Container) :
    (heap.alloc container).2.get? heap.containers.size = some container := by
  simp [alloc, get?]

/-- A write that is done replaces the container it was addressed to. -/
theorem exists_set_of_setProperty {heap after : Heap} {object value : Value} {key : Key}
    (done : heap.setProperty object key value = .ok after) :
    ∃ location container, object = .container location ∧ after = heap.set location container := by
  cases object with
  | container location =>
      simp only [setProperty] at done
      cases found : heap.get? location with
      | none => simp [found] at done
      | some container =>
          simp only [found] at done
          cases written : container.setProperty heap key value with
          | error fault => simp [written, Except.map] at done
          | ok container' =>
              simp only [written, Except.map, Except.ok.injEq] at done
              exact ⟨location, container', rfl, done.symm⟩
  | _ => simp [setProperty] at done

end Heap

namespace Run

theorem scope_read (name : Token) (state : State) : (read name state).2.scope = state.scope := by
  unfold read
  split <;> rfl

theorem scope_property (token : Token) (object : Value) (key : Key) (state : State) :
    (property token object key state).2.scope = state.scope := by
  unfold property
  split <;> rfl

theorem scope_setProperty (token : Token) (object : Binding) (key : Key) (value : Value)
    (state : State) : (setProperty token object key value state).2.scope = state.scope := by
  unfold setProperty
  split
  · rfl
  · split <;> rfl

theorem heap_read (name : Token) (state : State) : (read name state).2.heap = state.heap := by
  unfold read
  split <;> rfl

theorem heap_assign (name : Token) (value : Value) (state : State) :
    (assign name value state).2.heap = state.heap := by
  unfold assign
  split <;> rfl

theorem heap_property (token : Token) (object : Value) (key : Key) (state : State) :
    (property token object key state).2.heap = state.heap := by
  unfold property
  split <;> rfl

/-- A write replaces the container it is addressed to, or leaves the heap as it is. -/
theorem heap_setProperty (token : Token) (object : Binding) (key : Key) (value : Value)
    (state : State) :
    (setProperty token object key value state).2.heap = state.heap ∨
      ∃ location container, object.readonly = false ∧ object.value = .container location ∧
        (setProperty token object key value state).2.heap =
          state.heap.set location container := by
  unfold setProperty
  split
  · exact .inl rfl
  · rename_i isMutable
    split
    · rename_i heap done
      rcases Heap.exists_set_of_setProperty done with ⟨location, container, isContainer, rfl⟩
      exact .inr ⟨location, container, by simpa using isMutable, isContainer, rfl⟩
    · exact .inl rfl

/-! ## Containers are added and none is removed -/

/-- There are at least as many containers as before. -/
def SizeKept (before after : State) : Prop :=
  before.heap.containers.size ≤ after.heap.containers.size

theorem keeps_sizeKept_of_heap_eq {α : Type} {run : Run α}
    (same : ∀ state, (run state).2.heap = state.heap) : Keeps SizeKept run := by
  intro state
  exact Nat.le_of_eq (congrArg (·.containers.size) (same state).symm)

theorem steady_sizeKept : Steady SizeKept where
  refl state := Nat.le_refl _
  trans := Nat.le_trans
  read name := keeps_sizeKept_of_heap_eq (heap_read name)
  assign name value := keeps_sizeKept_of_heap_eq (heap_assign name value)
  alloc container state := by simp [SizeKept, alloc, Heap.alloc]
  property token object key := keeps_sizeKept_of_heap_eq (heap_property token object key)

theorem keeps_sizeKept_setProperty (token : Token) (object : Binding) (key : Key)
    (value : Value) : Keeps SizeKept (setProperty token object key value) := by
  intro state
  unfold SizeKept
  rcases heap_setProperty token object key value state with
    same | ⟨location, container, _, _, written⟩
  · exact Nat.le_of_eq (by rw [same])
  · exact Nat.le_of_eq (by rw [written, Heap.size_set])

theorem writes_sizeKept : Writes SizeKept fun _ => True := by
  intro object accessor value _ objectKept keyKept valueKept purpose
  simp only [Expr.run]
  apply steady_sizeKept.keeps_bind objectKept
  intro binding
  apply steady_sizeKept.keeps_bind keyKept
  intro key
  apply steady_sizeKept.keeps_bind valueKept
  intro written
  exact steady_sizeKept.keeps_bind (keeps_sizeKept_setProperty _ binding key written.value)
    fun _ => steady_sizeKept.keeps_pure _

end Run

end Descriptor
