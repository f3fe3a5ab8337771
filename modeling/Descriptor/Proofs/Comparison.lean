import Descriptor.Proofs.Grammar.View.Statement
import Descriptor.Proofs.Run
import Mathlib.Data.List.Forall2
import Mathlib.Order.Basic

/-!
# Two runs side by side

A property of two runs is stated as a relation between their states.  If it holds again behind
every single operation, with results that are related, then so it does behind all expressions, and
all statements.  Both inductions over the syntax are done here, once for all such relations.

How values are related may depend on what the runs have done so far, such as the containers that
they have added.  That is the world, and runs end in a world above the one they begin in.  States
are also related at a depth, the number of frames that both runs have opened.

The second run may be one of the program with other tokens of the same lexemes.
-/

namespace Descriptor

/-! ## Bindings, entries and keys -/

/-- Bindings of one kind to values that are related. -/
structure Binding.Related (values : Value → Value → Prop) (left right : Binding) : Prop where
  value : values left.value right.value
  readonly : left.readonly = right.readonly

/-- Entries of one name with values that are related. -/
def EntryRelated (values : Value → Value → Prop) (left right : String × Value) : Prop :=
  left.1 = right.1 ∧ values left.2 right.2

/-- Keys of one name, or indices that are related. -/
inductive Key.Related (values : Value → Value → Prop) : Key → Key → Prop where
  | named (name : String) : Related values (.named name) (.named name)
  | indexed {left right : Value} (indices : values left right) :
      Related values (.indexed left) (.indexed right)

section Monotone

variable {values values' : Value → Value → Prop}

theorem Binding.Related.imp (weaker : ∀ {left right}, values left right → values' left right)
    {left right : Binding} (related : left.Related values right) : left.Related values' right :=
  ⟨weaker related.value, related.readonly⟩

theorem Key.Related.imp (weaker : ∀ {left right}, values left right → values' left right)
    {left right : Key} (related : left.Related values right) : left.Related values' right := by
  cases related with
  | named name => exact .named name
  | indexed indices => exact .indexed (weaker indices)

end Monotone

theorem Accessor.token_mapTokens (map : Token → Token) (accessor : Accessor) :
    (accessor.mapTokens map).token = map accessor.token := by
  cases accessor <;> rfl

/-! ## Runs in parallel -/

namespace Run

section Parallel

variable {World : Type} [Preorder World] {w : World} {states : World → State → State → Prop}
  {α α' β β' : Type} {Out : World → α → α' → Prop} {Next : World → β → β' → Prop}

/-- From states that are related in the world `w`, two runs come to states that are related in a
world above it, with results that `Out` relates there. -/
def Parallel (states : World → State → State → Prop) (w : World) (Out : World → α → α' → Prop)
    (left : Run α) (right : Run α') : Prop :=
  ∀ state state', states w state state' → ∃ v, w ≤ v ∧
    states v (left state).2 (right state').2 ∧ Out v (left state).1 (right state').1

/-- Most runs stay in their world. -/
theorem parallel_of_stays {left : Run α} {right : Run α'}
    (stays : ∀ state state', states w state state' →
      states w (left state).2 (right state').2 ∧ Out w (left state).1 (right state').1) :
    Parallel states w Out left right :=
  fun state state' related => ⟨w, le_refl w, stays state state' related⟩

theorem parallel_pure {a : α} {a' : α'} (results : Out w a a') :
    Parallel states w Out (pure a) (pure a') :=
  parallel_of_stays fun _ _ related => ⟨related, results⟩

theorem parallel_bind {left : Run α} {right : Run α'} {next : α → Run β} {next' : α' → Run β'}
    (first : Parallel states w Out left right)
    (second : ∀ v, w ≤ v → ∀ a a', Out v a a' → Parallel states v Next (next a) (next' a')) :
    Parallel states w Next (left >>= next) (right >>= next') := by
  intro state state' related
  rcases first state state' related with ⟨v, le, between, results⟩
  rcases second v le _ _ results _ _ between with ⟨u, le', after, results'⟩
  exact ⟨u, le_trans le le', after, results'⟩

/-- Two runs that begin with a look at the heap find the heaps of related states. -/
theorem parallel_heap_bind {next : Heap → Run β} {next' : Heap → Run β'}
    (second : ∀ state state', states w state state' →
      Parallel states w Next (next state.heap) (next' state'.heap)) :
    Parallel states w Next (heap >>= next) (heap >>= next') :=
  fun state state' related => second state state' related state state' related

end Parallel

variable {World : Type} [Preorder World] {map : Token → Token}
  {states : Nat → World → State → State → Prop} {values : World → Value → Value → Prop}

/-- Relations of states and of values that single operations keep, if the second run has the tokens
that `map` gives.  Some frame has to be open where variables are read or defined. -/
structure Comparison (map : Token → Token) (states : Nat → World → State → State → Prop)
    (values : World → Value → Value → Prop) : Prop where
  lexeme : ∀ token, (map token).lexeme = token.lexeme
  mono : ∀ {w v}, w ≤ v → ∀ {left right}, values w left right → values v left right
  literal : ∀ w (literal : Literal), values w literal.toValue literal.toValue
  toBool : ∀ {w left right}, values w left right → left.toBool = right.toBool
  unary : ∀ {depth w state state'} (operator : UnaryOperator), states depth w state state' →
    ∀ {right right'}, values w right right' →
      values w (operator.apply state.heap right) (operator.apply state'.heap right')
  binary : ∀ {depth w state state'} (operator : BinaryOperator), states depth w state state' →
    ∀ {left left' right right'}, values w left left' → values w right right' →
      values w (operator.apply state.heap left right) (operator.apply state'.heap left' right')
  array : ∀ depth {w elements elements'}, List.Forall₂ (values w) elements elements' →
    Parallel (states depth) w values (alloc (.array elements)) (alloc (.array elements'))
  object : ∀ depth {w entries entries'}, List.Forall₂ (EntryRelated (values w)) entries entries' →
    Parallel (states depth) w values (alloc (.object (.ofList entries)))
      (alloc (.object (.ofList entries')))
  read : ∀ depth w name, Parallel (states (depth + 1)) w (fun v => Binding.Related (values v))
    (Run.read name) (Run.read (map name))
  assign : ∀ depth {w} name {value value'}, values w value value' →
    Parallel (states depth) w values (Run.assign name value) (Run.assign (map name) value')
  define : ∀ depth {w} name {value value'}, values w value value' →
    Parallel (states (depth + 1)) w (fun _ _ _ => True) (Run.define name value)
      (Run.define name value')
  property : ∀ depth {w} token {object object' key key'}, values w object object' →
    Key.Related (values w) key key' →
      Parallel (states depth) w values (Run.property token object key)
        (Run.property (map token) object' key')
  setProperty : ∀ depth {w} token {object object' key key' value value'},
    Binding.Related (values w) object object' → Key.Related (values w) key key' →
      values w value value' →
        Parallel (states depth) w values (Run.setProperty token object key value)
          (Run.setProperty (map token) object' key' value')
  enter : ∀ {depth w state state'}, states depth w state state' →
    states (depth + 1) w { state with scope := .ofList false [] :: state.scope }
      { state' with scope := .ofList false [] :: state'.scope }
  leave : ∀ {depth w state state'}, states (depth + 1) w state state' →
    states depth w { state with scope := state.scope.tail }
      { state' with scope := state'.scope.tail }

namespace Comparison

variable {w v : World} {depth : Nat}

theorem undefined (comparison : Comparison map states values) (w : World) :
    values w .undefined .undefined :=
  comparison.literal w .undefined

theorem isDecidedBy_eq (comparison : Comparison map states values) (operator : BinaryOperator)
    {left right : Value} (related : values w left right) :
    operator.isDecidedBy left = operator.isDecidedBy right := by
  cases operator <;> simp only [BinaryOperator.isDecidedBy, comparison.toBool related]

/-- Both runs open a frame, and drop it again. -/
theorem parallel_inNewFrame (comparison : Comparison map states values) {body body' : Run Value}
    (bodies : Parallel (states (depth + 1)) w values body body') :
    Parallel (states depth) w values (inNewFrame body) (inNewFrame body') := by
  intro state state' outside
  rcases bodies _ _ (comparison.enter outside) with ⟨v, le, inside, results⟩
  exact ⟨v, le, comparison.leave inside, results⟩

end Comparison

end Run

open Run

section Evaluation

variable {World : Type} [Preorder World] {map : Token → Token}
  {states : Nat → World → State → State → Prop} {values : World → Value → Value → Prop}

/-! ## Expressions -/

-- The inductions are over the syntax and for all worlds, since each part begins in the world where
-- the one before it has ended.  What was found before is taken along by `mono`.

mutual

/-- An expression runs in parallel with the one that has other tokens. -/
theorem Expr.parallel_run (comparison : Comparison map states values) (depth : Nat)
    (purpose : Purpose) :
    ∀ (expression : Expr) (w : World),
      Parallel (states (depth + 1)) w (fun v => Binding.Related (values v))
        (expression.run purpose) ((expression.mapTokens map).run purpose)
  | .literal literal, w => by
      simp only [Expr.mapTokens, Expr.run]
      exact parallel_pure ⟨comparison.literal w literal, rfl⟩
  | .variable name, w => by
      simp only [Expr.mapTokens, Expr.run]
      apply parallel_bind (comparison.read depth w name)
      intro v _ _ _ bindings
      exact parallel_pure ⟨bindings.value, by rw [bindings.readonly]⟩
  | .group inner, w => by
      simp only [Expr.mapTokens, Expr.run]
      exact inner.parallel_run comparison depth purpose w
  | .array elements, w => by
      simp only [Expr.mapTokens, Expr.run]
      apply parallel_bind (parallel_runElements comparison depth elements w)
      intro v _ _ _ elements
      apply parallel_bind (comparison.array (depth + 1) elements)
      intro u _ _ _ allocated
      exact parallel_pure ⟨allocated, rfl⟩
  | .object properties, w => by
      simp only [Expr.mapTokens, Expr.run]
      apply parallel_bind (parallel_runProperties comparison depth properties w)
      intro v _ _ _ entries
      apply parallel_bind (comparison.object (depth + 1) entries)
      intro u _ _ _ allocated
      exact parallel_pure ⟨allocated, rfl⟩
  | .unary operator _ right, w => by
      simp only [Expr.mapTokens, Expr.run]
      apply parallel_bind (right.parallel_run comparison depth .value w)
      intro v _ _ _ rights
      apply parallel_heap_bind
      intro state state' related
      exact parallel_pure ⟨comparison.unary operator related rights.value, rfl⟩
  | .binary left operator _ right, w => by
      simp only [Expr.mapTokens, Expr.run]
      apply parallel_bind (left.parallel_run comparison depth .value w)
      intro v _ _ _ lefts
      rw [comparison.isDecidedBy_eq operator lefts.value]
      split
      · exact parallel_pure ⟨lefts.value, rfl⟩
      · apply parallel_bind (right.parallel_run comparison depth .value v)
        intro u le _ _ rights
        apply parallel_heap_bind
        intro state state' related
        have lefts' := comparison.mono le lefts.value
        exact parallel_pure ⟨comparison.binary operator related lefts' rights.value, rfl⟩
  | .get object accessor, w => by
      simp only [Expr.mapTokens, Expr.run, accessor.token_mapTokens]
      apply parallel_bind (object.parallel_run comparison depth purpose w)
      intro v _ _ _ objects
      apply parallel_bind (accessor.parallel_runKey comparison depth v)
      intro u le _ _ keys
      apply parallel_bind
        (comparison.property (depth + 1) _ (comparison.mono le objects.value) keys)
      intro t _ _ _ found
      exact parallel_pure ⟨found, objects.readonly⟩
  | .assign target value, w => by
      simp only [Expr.mapTokens, Expr.run]
      apply parallel_bind (value.parallel_run comparison depth .value w)
      intro v _ _ _ assigned
      apply parallel_bind (comparison.assign (depth + 1) target assigned.value)
      intro u _ _ _ results
      exact parallel_pure ⟨results, rfl⟩
  | .set object accessor value, w => by
      simp only [Expr.mapTokens, Expr.run, accessor.token_mapTokens]
      apply parallel_bind (object.parallel_run comparison depth .place w)
      intro v _ _ _ objects
      apply parallel_bind (accessor.parallel_runKey comparison depth v)
      intro u le _ _ keys
      apply parallel_bind (value.parallel_run comparison depth .value u)
      intro t le' _ _ written
      have objects' := objects.imp (comparison.mono (le_trans le le'))
      have keys' := keys.imp (comparison.mono le')
      apply parallel_bind (comparison.setProperty (depth + 1) _ objects' keys' written.value)
      intro s _ _ _ results
      exact parallel_pure ⟨results, rfl⟩

/-- The key of an access runs in parallel with the one that has other tokens. -/
theorem Accessor.parallel_runKey (comparison : Comparison map states values) (depth : Nat) :
    ∀ (accessor : Accessor) (w : World),
      Parallel (states (depth + 1)) w (fun v => Key.Related (values v)) accessor.runKey
        (accessor.mapTokens map).runKey
  | .field name, w => by
      simp only [Accessor.mapTokens, Accessor.runKey, comparison.lexeme]
      exact parallel_pure (.named name.lexeme)
  | .element _ index, w => by
      simp only [Accessor.mapTokens, Accessor.runKey]
      apply parallel_bind (index.parallel_run comparison depth .value w)
      intro v _ _ _ indices
      exact parallel_pure (.indexed indices.value)

/-- Array elements run in parallel with those that have other tokens. -/
theorem parallel_runElements (comparison : Comparison map states values) (depth : Nat) :
    ∀ (elements : List Expr) (w : World),
      Parallel (states (depth + 1)) w (fun v => List.Forall₂ (values v)) (runElements elements)
        (runElements (mapElements map elements))
  | [], w => by
      simp only [mapElements, runElements]
      exact parallel_pure .nil
  | element :: elements, w => by
      simp only [mapElements, runElements]
      apply parallel_bind (element.parallel_run comparison depth .value w)
      intro v _ _ _ head
      apply parallel_bind (parallel_runElements comparison depth elements v)
      intro u le _ _ tail
      exact parallel_pure (.cons (comparison.mono le head.value) tail)

/-- Object properties run in parallel with those that have other tokens. -/
theorem parallel_runProperties (comparison : Comparison map states values) (depth : Nat) :
    ∀ (properties : List (Token × Expr)) (w : World),
      Parallel (states (depth + 1)) w (fun v => List.Forall₂ (EntryRelated (values v)))
        (runProperties properties) (runProperties (mapProperties map properties))
  | [], w => by
      simp only [mapProperties, runProperties]
      exact parallel_pure .nil
  | (_, value) :: properties, w => by
      simp only [mapProperties, runProperties, comparison.lexeme]
      apply parallel_bind (value.parallel_run comparison depth .value w)
      intro v _ _ _ head
      apply parallel_bind (parallel_runProperties comparison depth properties v)
      intro u le _ _ tail
      exact parallel_pure (.cons ⟨rfl, comparison.mono le head.value⟩ tail)

end

theorem Expr.parallel_evaluate (comparison : Comparison map states values) (depth : Nat)
    (expression : Expr) (w : World) :
    Parallel (states (depth + 1)) w values expression.evaluate
      (expression.mapTokens map).evaluate := by
  apply parallel_bind (expression.parallel_run comparison depth .value w)
  intro v _ _ _ bindings
  exact parallel_pure bindings.value

/-! ## Statements -/

mutual

/-- A statement runs in parallel with the one that has other tokens. -/
theorem Stmt.parallel_run (comparison : Comparison map states values) :
    ∀ (statement : Stmt) (depth : Nat) (w : World),
      Parallel (states (depth + 1)) w values statement.run (statement.mapTokens map).run
  | .block body, depth, w => by
      simp only [Stmt.mapTokens, Stmt.run]
      exact comparison.parallel_inNewFrame
        (parallel_runFrom comparison body (depth + 1) w (comparison.undefined w))
  | .expression expression, depth, w => by
      simp only [Stmt.mapTokens, Stmt.run]
      exact expression.parallel_evaluate comparison depth w
  | .branch condition positive none, depth, w => by
      simp only [Stmt.mapTokens, Stmt.run]
      apply parallel_bind (condition.parallel_evaluate comparison depth w)
      intro v _ _ _ conditions
      rw [comparison.toBool conditions]
      split
      · exact positive.parallel_run comparison depth v
      · exact parallel_pure (comparison.undefined v)
  | .branch condition positive (some negative), depth, w => by
      simp only [Stmt.mapTokens, Stmt.run]
      apply parallel_bind (condition.parallel_evaluate comparison depth w)
      intro v _ _ _ conditions
      rw [comparison.toBool conditions]
      split
      · exact positive.parallel_run comparison depth v
      · exact negative.parallel_run comparison depth v
  | .choice condition positive none, depth, w => by
      simp only [Stmt.mapTokens, Stmt.run, Option.map_none]
      apply parallel_bind (condition.parallel_evaluate comparison depth w)
      intro v _ _ _ conditions
      rw [comparison.toBool conditions]
      split
      · exact positive.parallel_evaluate comparison depth v
      · exact parallel_pure (comparison.undefined v)
  | .choice condition positive (some negative), depth, w => by
      simp only [Stmt.mapTokens, Stmt.run, Option.map_some]
      apply parallel_bind (condition.parallel_evaluate comparison depth w)
      intro v _ _ _ conditions
      rw [comparison.toBool conditions]
      split
      · exact positive.parallel_evaluate comparison depth v
      · exact negative.parallel_evaluate comparison depth v
  | .declaration name none, depth, w => by
      simp only [Stmt.mapTokens, Stmt.run, Option.map_none, comparison.lexeme]
      have initial : Parallel (states (depth + 1)) w values (pure .undefined) (pure .undefined) :=
        parallel_pure (comparison.undefined w)
      apply parallel_bind initial
      intro v _ _ _ initials
      apply parallel_bind (comparison.define depth name.lexeme initials)
      intro u le _ _ _
      exact parallel_pure (comparison.mono le initials)
  | .declaration name (some initializer), depth, w => by
      simp only [Stmt.mapTokens, Stmt.run, Option.map_some, comparison.lexeme]
      apply parallel_bind (initializer.parallel_evaluate comparison depth w)
      intro v _ _ _ initials
      apply parallel_bind (comparison.define depth name.lexeme initials)
      intro u le _ _ _
      exact parallel_pure (comparison.mono le initials)

/-- A list of statements runs in parallel with the one that has other tokens. -/
theorem parallel_runFrom (comparison : Comparison map states values) :
    ∀ (body : List Stmt) (depth : Nat) (w : World) {last last' : Value}, values w last last' →
      Parallel (states (depth + 1)) w values (runFrom last body)
        (runFrom last' (mapBody map body))
  | [], _, _, _, _, lasts => by
      simp only [mapBody, runFrom]
      exact parallel_pure lasts
  | statement :: body, depth, w, _, _, _ => by
      simp only [mapBody, runFrom]
      apply parallel_bind (statement.parallel_run comparison depth w)
      intro v _ _ _ results
      exact parallel_runFrom comparison body depth v results

end

/-- A program runs in parallel with the one that has other tokens. -/
theorem parallel_evaluate (comparison : Comparison map states values) (program : List Stmt)
    (depth : Nat) (w : World) :
    Parallel (states depth) w values (evaluate program) (evaluate (mapBody map program)) :=
  comparison.parallel_inNewFrame
    (parallel_runFrom comparison program depth w (comparison.undefined w))

end Evaluation

end Descriptor
