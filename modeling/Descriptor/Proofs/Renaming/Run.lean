import Descriptor.Proofs.Renaming.Value

/-!
# Runs up to the identity of containers

A program that is run in two states that are the same up to a renaming ends in two states that are
the same up to a larger one, with the same value and the same errors: `evaluate_same`.  The
renaming grows by the containers that the runs add, one pair for each array or object literal.
-/

namespace Descriptor

variable {R S : Renaming}

/-! ## Scopes and states -/

/-- Frames of one kind whose variables have the same names and values. -/
structure Frame.Same (R : Renaming) (left right : Frame) : Prop where
  bindings : left.bindings.Same R right.bindings
  readonly : left.readonly = right.readonly

/-- Bindings of one kind to values that are the same. -/
abbrev Binding.Same (R : Renaming) : Binding → Binding → Prop :=
  Binding.Related (Value.Same R)

theorem Frame.Same.mono (le : R ≤ S) {left right : Frame} (same : left.Same R right) :
    left.Same S right :=
  ⟨same.bindings.mono le, same.readonly⟩

theorem Frame.Same.define {left right : Frame} (same : left.Same R right) (name : String)
    {value value' : Value} (values : value.Same R value') :
    (left.define name value).Same R (right.define name value') :=
  ⟨same.bindings.insert name values, same.readonly⟩

namespace Scope

/-- Scopes whose frames are the same. -/
abbrev Same (R : Renaming) (left right : Scope) : Prop :=
  List.Forall₂ (Frame.Same R) left right

variable {left right : Scope}

theorem Same.mono (le : R ≤ S) (same : left.Same R right) : left.Same S right :=
  List.Forall₂.imp (fun _ _ frames => frames.mono le) same

theorem Same.isReadonly_eq (same : left.Same R right) : left.isReadonly = right.isReadonly := by
  cases same with
  | nil => rfl
  | cons head _ => simp [isReadonly, head.readonly]

theorem Same.lookup? (same : left.Same R right) (name : String) :
    Option.Rel (Binding.Same R) (left.lookup? name) (right.lookup? name) := by
  induction same with
  | nil => exact .none
  | @cons frame frame' _ _ head _ ih =>
      simp only [Scope.lookup?]
      have found := head.bindings.get? name
      generalize frame.bindings.get? name = here, frame'.bindings.get? name = here' at found ⊢
      cases found with
      | some values => exact .some ⟨values, head.readonly⟩
      | none => exact ih

theorem Same.define (same : left.Same R right) (name : String) {value value' : Value}
    (values : value.Same R value') :
    (left.define name value).Same R (right.define name value') := by
  cases same with
  | nil => exact .nil
  | cons head tail => exact .cons (head.define name values) tail

theorem Same.tail (same : left.Same R right) : Same R left.tail right.tail := by
  cases same with
  | nil => exact .nil
  | cons _ tail => exact tail

end Scope

/-- Assignments of one outcome. -/
inductive Assignment.Same (R : Renaming) : Assignment → Assignment → Prop where
  | done {scope scope' : Scope} (scopes : scope.Same R scope') :
      Same R (.done scope) (.done scope')
  | refused {current current' : Value} (values : current.Same R current') :
      Same R (.refused current) (.refused current')
  | unbound : Same R .unbound .unbound

theorem Scope.Same.assign {left right : Scope} (same : left.Same R right) (name : String)
    {value value' : Value} (values : value.Same R value') :
    (left.assign name value).Same R (right.assign name value') := by
  induction same with
  | nil => exact .unbound
  | @cons frame frame' outer outer' head tail ih =>
      simp only [Scope.assign]
      have found := head.bindings.get? name
      generalize frame.bindings.get? name = here, frame'.bindings.get? name = here' at found ⊢
      cases found with
      | some currents =>
          simp only [head.readonly]
          split
          · exact .refused currents
          · exact .done (.cons (head.define name values) tail)
      | none =>
          generalize Scope.assign name value outer = behind,
            Scope.assign name value' outer' = behind' at ih ⊢
          cases ih with
          | done scopes => exact .done (.cons head scopes)
          | refused currents => exact .refused currents
          | unbound => exact .unbound

/-- States with the same containers, variables and errors. -/
structure State.Same (R : Renaming) (left right : State) : Prop where
  heap : left.heap.Same R right.heap
  scope : left.scope.Same R right.scope
  errors : left.errors = right.errors

theorem State.Same.report {left right : State} (same : left.Same R right) (token : Token)
    (fault : RuntimeFault) : (left.report token fault).Same R (right.report token fault) :=
  ⟨same.heap, same.scope, congrArg (·.push ⟨token, fault⟩) same.errors⟩

/-! ## Runs from states that are the same -/

namespace Run

theorem parallel_read_of_same (name : Token) :
    Parallel State.Same R Binding.Same (read name) (read name) := by
  apply parallel_of_stays
  intro state state' states
  unfold read
  have found := states.scope.lookup? name.lexeme
  generalize state.scope.lookup? name.lexeme = here,
    state'.scope.lookup? name.lexeme = here' at found ⊢
  cases found with
  | some bindings => exact ⟨states, bindings⟩
  | none => exact ⟨states.report _ _, .undefined, states.scope.isReadonly_eq⟩

theorem parallel_assign_of_same (name : Token) {value value' : Value}
    (values : value.Same R value') :
    Parallel State.Same R Value.Same (assign name value) (assign name value') := by
  apply parallel_of_stays
  intro state state' states
  unfold assign
  have assigned := states.scope.assign name.lexeme values
  generalize state.scope.assign name.lexeme value = here,
    state'.scope.assign name.lexeme value' = here' at assigned ⊢
  cases assigned with
  | done scopes => exact ⟨⟨states.heap, scopes, states.errors⟩, values⟩
  | refused currents => exact ⟨states.report _ _, currents⟩
  | unbound => exact ⟨states.report _ _, .undefined⟩

theorem parallel_define_of_same (name : String) {value value' : Value}
    (values : value.Same R value') :
    Parallel State.Same R (fun _ _ _ => True) (define name value) (define name value') := by
  apply parallel_of_stays
  intro state state' states
  exact ⟨⟨states.heap, states.scope.define name values, states.errors⟩, trivial⟩

theorem parallel_alloc_of_same {container container' : Container}
    (containers : container.Same R container') :
    Parallel State.Same R Value.Same (alloc container) (alloc container') := by
  intro state state' states
  have le := R.le_extend state.heap.containers.size state'.heap.containers.size
  exact ⟨_, le, ⟨states.heap.alloc containers, states.scope.mono le, states.errors⟩,
    .container (.inr ⟨rfl, rfl⟩)⟩

theorem parallel_property_of_same (token : Token) {object object' : Value} {key key' : Key}
    (objects : object.Same R object') (keys : key.Same R key') :
    Parallel State.Same R Value.Same (property token object key) (property token object' key') := by
  apply parallel_of_stays
  intro state state' states
  unfold property
  have found := states.heap.property? objects keys
  generalize state.heap.property? object key = here,
    state'.heap.property? object' key' = here' at found ⊢
  cases found with
  | some values => exact ⟨states, values⟩
  | none => exact ⟨states.report _ _, .undefined⟩

theorem parallel_setProperty_of_same (token : Token) {object object' : Binding} {key key' : Key}
    {value value' : Value} (objects : object.Same R object') (keys : key.Same R key')
    (values : value.Same R value') :
    Parallel State.Same R Value.Same (setProperty token object key value)
      (setProperty token object' key' value') := by
  apply parallel_of_stays
  intro state state' states
  simp only [setProperty, objects.readonly]
  split
  · exact ⟨states.report _ _, same_getD (states.heap.property? objects.value keys)⟩
  · rcases states.heap.setProperty objects.value keys values with
      ⟨fault, failed, failed'⟩ | ⟨after, after', done, done', heaps⟩
    · rw [failed, failed']
      exact ⟨states.report _ _, .undefined⟩
    · rw [done, done']
      exact ⟨⟨heaps, states.scope, states.errors⟩, values⟩

end Run

/-- States that are the same up to a renaming stay so in two runs, up to larger renamings. -/
theorem State.comparison_same :
    Run.Comparison id (fun _ => State.Same) (fun R => Value.Same R) where
  lexeme _ := rfl
  mono le _ _ same := same.mono le
  literal _ literal := literal.same_toValue
  toBool same := same.toBool_eq
  unary operator states _ _ rights := states.heap.unary operator rights
  binary operator states _ _ _ _ lefts rights := states.heap.binary operator lefts rights
  array _ _ _ _ elements := Run.parallel_alloc_of_same (.array elements)
  object _ _ _ _ entries := Run.parallel_alloc_of_same (.object (Record.same_ofList entries))
  read _ _ name := Run.parallel_read_of_same name
  assign _ _ name _ _ values := Run.parallel_assign_of_same name values
  define _ _ name _ _ values := Run.parallel_define_of_same name values
  property _ _ token _ _ _ _ objects keys := Run.parallel_property_of_same token objects keys
  setProperty _ _ token _ _ _ _ _ _ objects keys values :=
    Run.parallel_setProperty_of_same token objects keys values
  enter states := ⟨states.heap, .cons ⟨.nil, rfl⟩ states.scope, states.errors⟩
  leave states := ⟨states.heap, states.scope.tail, states.errors⟩

/-- A program that is run in two states that are the same comes to the same value and to states that
are the same, up to a larger renaming. -/
theorem evaluate_same {state state' : State} (states : state.Same R state')
    (program : List Stmt) :
    ∃ S, R ≤ S ∧ (evaluate program state).2.Same S (evaluate program state').2 ∧
      (evaluate program state).1.Same S (evaluate program state').1 := by
  have parallel := parallel_evaluate State.comparison_same program 0 R
  rw [mapBody_id] at parallel
  exact parallel state state' states

end Descriptor
