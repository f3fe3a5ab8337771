import Descriptor.Proofs.Frames

/-!
# Scopes are lexical

Whether a name is bound where it stands can be read off the syntax.  A declaration binds its name
for the statements behind it in the same list and for all that is nested in them, but not for its
own initializer.  A program that mentions no other names than those and the ones its scope binds
never misses a variable, whatever else goes wrong: `evaluate_finds_variables`.

The invariant of a run is `State.Binds`: the names that count as bound are bound, and no variable
has been missed so far.
-/

namespace Descriptor

/-! ## Names in the syntax -/

mutual

/-- The variables that an expression reads and assigns to, at any depth. -/
def Expr.mentioned : Expr → List Token
  | .literal _ => []
  | .variable name => [name]
  | .group inner => inner.mentioned
  | .array elements => mentionedInElements elements
  | .object properties => mentionedInProperties properties
  | .unary _ _ right => right.mentioned
  | .binary left _ _ right => left.mentioned ++ right.mentioned
  | .get object accessor => object.mentioned ++ accessor.mentioned
  | .assign target value => target :: value.mentioned
  | .set object accessor value => object.mentioned ++ accessor.mentioned ++ value.mentioned

/-- The variables in the index of an access. -/
def Accessor.mentioned : Accessor → List Token
  | .field _ => []
  | .element _ index => index.mentioned

/-- The variables in array elements. -/
def mentionedInElements : List Expr → List Token
  | [] => []
  | element :: elements => element.mentioned ++ mentionedInElements elements

/-- The variables in object properties. -/
def mentionedInProperties : List (Token × Expr) → List Token
  | [] => []
  | (_, value) :: properties => value.mentioned ++ mentionedInProperties properties

end

/-- Whether an expression mentions no other names than these. -/
def Expr.isWithin (names : List String) (expression : Expr) : Bool :=
  expression.mentioned.all fun name => name.lexeme ∈ names

/-- The names that a statement binds for the statements behind it. -/
def Stmt.binds : Stmt → List String
  | .declaration name _ => [name.lexeme]
  | _ => []

mutual

/-- Whether a statement mentions, wherever it does, only names that are bound there. -/
def Stmt.isWithin (names : List String) : Stmt → Bool
  | .block body => bodyIsWithin names body
  | .expression expression => expression.isWithin names
  | .branch condition positive none => condition.isWithin names && positive.isWithin names
  | .branch condition positive (some negative) =>
      condition.isWithin names && positive.isWithin names && negative.isWithin names
  | .choice condition positive none => condition.isWithin names && positive.isWithin names
  | .choice condition positive (some negative) =>
      condition.isWithin names && positive.isWithin names && negative.isWithin names
  | .declaration _ none => true
  | .declaration _ (some initializer) => initializer.isWithin names

/-- Whether each statement of a list mentions only these names and those that the statements
before it bind. -/
def bodyIsWithin (names : List String) : List Stmt → Bool
  | [] => true
  | statement :: body =>
      statement.isWithin names && bodyIsWithin (statement.binds ++ names) body

end

theorem Expr.isWithin_iff {names : List String} {expression : Expr} :
    expression.isWithin names = true ↔ ∀ name ∈ expression.mentioned, name.lexeme ∈ names := by
  simp [isWithin]

/-! ## Names in a scope -/

theorem Record.get?_eq_none_iff {α : Type} {record : Record α} {name : String} :
    record.get? name = none ↔ name ∉ record.names := by
  simp only [get?, names]
  induction record.entries with
  | nil => simp [find?]
  | cons entry rest ih =>
      simp only [find?, List.map_cons, List.mem_cons, not_or, ← ih]
      by_cases same : entry.1 = name
      · simp [same]
      · simp [same, Ne.symm same]

theorem Record.mem_names_insert {α : Type} {record : Record α} {name other : String} {value : α} :
    other ∈ (record.insert name value).names ↔ other = name ∨ other ∈ record.names := by
  rw [← not_iff_not, ← get?_eq_none_iff, not_or, ← get?_eq_none_iff]
  by_cases same : other = name
  · simp [same]
  · simp [same, get?_insert_of_ne record value same]

namespace Scope

/-- The names that some frame binds. -/
def names (scope : Scope) : List String :=
  scope.flatMap (·.bindings.names)

@[simp]
theorem names_cons (frame : Frame) (outer : Scope) :
    names (frame :: outer) = frame.bindings.names ++ names outer :=
  rfl

theorem lookup?_eq_none_iff {scope : Scope} {name : String} :
    scope.lookup? name = none ↔ name ∉ scope.names := by
  induction scope with
  | nil => simp [lookup?, names]
  | cons frame outer ih =>
      rw [lookup?, names_cons, List.mem_append, not_or, ← ih, ← Record.get?_eq_none_iff]
      cases frame.bindings.get? name <;> simp

theorem assign_eq_unbound_iff {scope : Scope} {name : String} {value : Value} :
    scope.assign name value = .unbound ↔ name ∉ scope.names := by
  induction scope with
  | nil => simp [assign, names]
  | cons frame outer ih =>
      rw [assign, names_cons, List.mem_append, not_or, ← ih, ← Record.get?_eq_none_iff]
      cases frame.bindings.get? name with
      | some current => cases frame.readonly <;> simp
      | none => cases assign name value outer <;> simp

/-- A scope whose frames are kept binds the same names. -/
theorem Kept.names_eq {before after : Scope} (kept : Kept before after) :
    after.names = before.names := by
  induction kept with
  | nil => rfl
  | cons head _ ih => rw [names_cons, names_cons, head.names, ih]

end Scope

/-! ## The invariant -/

/-- No variable has been missed so far. -/
def State.FindsVariables (state : State) : Prop :=
  ∀ error ∈ state.errors, ∀ name, error.fault ≠ .undefinedVariable name

/-- There is a frame to declare in, the given names are bound, and no variable has been missed so
far. -/
structure State.Binds (names : List String) (state : State) : Prop where
  framed : state.scope ≠ []
  bound : ∀ name ∈ names, name ∈ state.scope.names
  finds : state.FindsVariables

/-- Fewer names are bound as well. -/
theorem State.Binds.mono {names fewer : List String} {state : State} (binds : state.Binds names)
    (subset : fewer ⊆ names) : state.Binds fewer :=
  ⟨binds.framed, fun name member => binds.bound name (subset member), binds.finds⟩

theorem State.FindsVariables.report {state : State} (finds : state.FindsVariables) (token : Token)
    {fault : RuntimeFault} (other : ∀ name, fault ≠ .undefinedVariable name) :
    (state.report token fault).FindsVariables := by
  intro error member
  rcases Array.mem_push.mp member with member | rfl
  · exact finds error member
  · exact other

theorem State.Binds.report {names : List String} {state : State} (binds : state.Binds names)
    (token : Token) {fault : RuntimeFault} (other : ∀ name, fault ≠ .undefinedVariable name) :
    (state.report token fault).Binds names :=
  ⟨binds.framed, binds.bound, binds.finds.report token other⟩

/-- The invariant only depends on the frames and their names, and on the errors. -/
theorem State.Binds.of_kept {names : List String} {before after : State}
    (binds : before.Binds names) (kept : Scope.Kept before.scope after.scope)
    (finds : after.FindsVariables) : after.Binds names where
  framed empty := by
    rw [empty] at kept
    exact binds.framed (List.forall₂_nil_right_iff.mp kept)
  bound name member := by
    rw [kept.names_eq]
    exact binds.bound name member
  finds := finds

/-- Writing a property may fail, but no variable is read for it. -/
theorem Heap.setProperty_ne_undefinedVariable {heap : Heap} {object value : Value} {key : Key}
    {fault : RuntimeFault} (failed : heap.setProperty object key value = .error fault)
    (name : String) : fault ≠ .undefinedVariable name := by
  rintro rfl
  unfold setProperty at failed
  split at failed
  · split at failed
    · rename_i container _
      cases container with
      | array elements =>
          simp only [Container.setProperty] at failed
          split at failed
          · cases failed
          · split at failed <;> cases failed
      | object properties => cases failed
    · cases failed
  · cases failed

/-! ## Runs keep the invariant -/

namespace Run

variable {α β : Type} {P Q R : State → Prop} {names : List String}

/-- If the state before a run has the one property, the state after it has the other. -/
structure Ensures (P Q : State → Prop) (run : Run α) : Prop where
  after : ∀ state, P state → Q (run state).2

theorem ensures_pure (a : α) : Ensures P P (pure a : Run α) :=
  ⟨fun _ holds => holds⟩

theorem ensures_heap : Ensures P P Run.heap :=
  ⟨fun _ holds => holds⟩

theorem ensures_bind {run : Run α} {next : α → Run β} (first : Ensures P Q run)
    (second : ∀ a, Ensures Q R (next a)) : Ensures P R (run >>= next) := by
  constructor
  intro state holds
  exact (second _).after _ (first.after state holds)

theorem Ensures.imp {run : Run α} (ensures : Ensures P Q run)
    (implies : ∀ state, Q state → R state) : Ensures P R run := by
  constructor
  intro state holds
  exact implies _ (ensures.after state holds)

theorem binds_read {name : Token} (bound : name.lexeme ∈ names) :
    Ensures (State.Binds names) (State.Binds names) (read name) := by
  constructor
  intro state binds
  unfold read
  split
  · exact binds
  · rename_i missing
    exact absurd (binds.bound _ bound) (Scope.lookup?_eq_none_iff.mp missing)

theorem binds_assign {target : Token} (bound : target.lexeme ∈ names) (value : Value) :
    Ensures (State.Binds names) (State.Binds names) (assign target value) := by
  constructor
  intro state binds
  unfold assign
  split
  · rename_i scope done
    exact binds.of_kept (Scope.kept_of_assign_eq_done done) binds.finds
  · exact binds.report _ fun _ => nofun
  · rename_i missing
    exact absurd (binds.bound _ bound) (Scope.assign_eq_unbound_iff.mp missing)

theorem binds_alloc (container : Container) :
    Ensures (State.Binds names) (State.Binds names) (alloc container) :=
  ⟨fun _ binds => ⟨binds.framed, binds.bound, binds.finds⟩⟩

theorem binds_property (token : Token) (object : Value) (key : Key) :
    Ensures (State.Binds names) (State.Binds names) (property token object key) := by
  constructor
  intro state binds
  unfold property
  split
  · exact binds
  · exact binds.report _ fun _ => nofun

theorem binds_setProperty (token : Token) (object : Binding) (key : Key) (value : Value) :
    Ensures (State.Binds names) (State.Binds names) (setProperty token object key value) := by
  constructor
  intro state binds
  unfold setProperty
  split
  · exact binds.report _ fun _ => nofun
  · split
    · exact ⟨binds.framed, binds.bound, binds.finds⟩
    · rename_i fault failed
      exact binds.report _ (Heap.setProperty_ne_undefinedVariable failed)

/-- A declared name is bound from then on. -/
theorem binds_define (name : String) (value : Value) :
    Ensures (State.Binds names) (State.Binds (name :: names)) (define name value) := by
  constructor
  intro state binds
  cases frames : state.scope with
  | nil => exact absurd frames binds.framed
  | cons frame outer =>
      have defined : (define name value state).2.scope = frame.define name value :: outer := by
        simp [define, frames, Scope.define]
      constructor
      · rw [defined]
        exact List.cons_ne_nil _ _
      · intro other member
        rw [defined, Scope.names_cons, List.mem_append, Frame.define, Record.mem_names_insert]
        rcases List.mem_cons.mp member with rfl | member
        · exact .inl (.inl rfl)
        · have bound := binds.bound other member
          rw [frames, Scope.names_cons, List.mem_append] at bound
          rcases bound with inFrame | inOuter
          · exact .inl (.inr inFrame)
          · exact .inr inOuter
      · exact binds.finds

/-- A frame that is opened binds no further names, and the frames around it stay as they are. -/
theorem binds_inNewFrame {body : Run Value} (kept : Keeps OuterFramesKept body)
    (finds : Ensures (State.Binds names) State.FindsVariables body) :
    Ensures (State.Binds names) (State.Binds names) (inNewFrame body) := by
  constructor
  intro state binds
  let opened : State := { state with scope := .ofList false [] :: state.scope }
  have bindsOpened : opened.Binds names := ⟨List.cons_ne_nil _ _, binds.bound, binds.finds⟩
  exact binds.of_kept (kept opened) (finds.after opened bindsOpened)

end Run

open Run

mutual

/-- An expression that mentions bound names only misses no variable. -/
theorem Expr.binds_run {names : List String} (purpose : Purpose) :
    ∀ expression : Expr, (∀ name ∈ expression.mentioned, name.lexeme ∈ names) →
      Ensures (State.Binds names) (State.Binds names) (expression.run purpose)
  | .literal _, _ => by
      simp only [Expr.run]
      exact ensures_pure _
  | .variable name, bound => by
      simp only [Expr.mentioned, List.forall_mem_singleton] at bound
      simp only [Expr.run]
      exact ensures_bind (binds_read bound) fun _ => ensures_pure _
  | .group inner, bound => by
      simp only [Expr.run]
      exact inner.binds_run purpose bound
  | .array elements, bound => by
      simp only [Expr.run]
      apply ensures_bind (binds_runElements elements bound)
      intro values
      exact ensures_bind (binds_alloc _) fun _ => ensures_pure _
  | .object properties, bound => by
      simp only [Expr.run]
      apply ensures_bind (binds_runProperties properties bound)
      intro entries
      exact ensures_bind (binds_alloc _) fun _ => ensures_pure _
  | .unary _ _ right, bound => by
      simp only [Expr.run]
      apply ensures_bind (right.binds_run .value bound)
      intro _
      exact ensures_bind ensures_heap fun _ => ensures_pure _
  | .binary left _ _ right, bound => by
      simp only [Expr.mentioned, List.forall_mem_append] at bound
      simp only [Expr.run]
      apply ensures_bind (left.binds_run .value bound.1)
      intro leftValue
      split
      · exact ensures_pure _
      · apply ensures_bind (right.binds_run .value bound.2)
        intro _
        exact ensures_bind ensures_heap fun _ => ensures_pure _
  | .get object accessor, bound => by
      simp only [Expr.mentioned, List.forall_mem_append] at bound
      simp only [Expr.run]
      apply ensures_bind (object.binds_run purpose bound.1)
      intro _
      apply ensures_bind (accessor.binds_runKey bound.2)
      intro _
      exact ensures_bind (binds_property _ _ _) fun _ => ensures_pure _
  | .assign target value, bound => by
      simp only [Expr.mentioned, List.forall_mem_cons] at bound
      simp only [Expr.run]
      apply ensures_bind (value.binds_run .value bound.2)
      intro _
      exact ensures_bind (binds_assign bound.1 _) fun _ => ensures_pure _
  | .set object accessor value, bound => by
      simp only [Expr.mentioned, List.forall_mem_append] at bound
      rcases bound with ⟨⟨inObject, inAccessor⟩, inValue⟩
      simp only [Expr.run]
      apply ensures_bind (object.binds_run .place inObject)
      intro _
      apply ensures_bind (accessor.binds_runKey inAccessor)
      intro _
      apply ensures_bind (value.binds_run .value inValue)
      intro _
      exact ensures_bind (binds_setProperty _ _ _ _) fun _ => ensures_pure _

/-- An access whose index mentions bound names only misses no variable. -/
theorem Accessor.binds_runKey {names : List String} :
    ∀ accessor : Accessor, (∀ name ∈ accessor.mentioned, name.lexeme ∈ names) →
      Ensures (State.Binds names) (State.Binds names) accessor.runKey
  | .field _, _ => by
      simp only [Accessor.runKey]
      exact ensures_pure _
  | .element _ index, bound => by
      simp only [Accessor.runKey]
      exact ensures_bind (index.binds_run .value bound) fun _ => ensures_pure _

/-- Array elements that mention bound names only miss no variable. -/
theorem binds_runElements {names : List String} :
    ∀ elements : List Expr, (∀ name ∈ mentionedInElements elements, name.lexeme ∈ names) →
      Ensures (State.Binds names) (State.Binds names) (runElements elements)
  | [], _ => by
      simp only [runElements]
      exact ensures_pure _
  | element :: elements, bound => by
      simp only [mentionedInElements, List.forall_mem_append] at bound
      simp only [runElements]
      apply ensures_bind (element.binds_run .value bound.1)
      intro _
      exact ensures_bind (binds_runElements elements bound.2) fun _ => ensures_pure _

/-- Object properties whose values mention bound names only miss no variable. -/
theorem binds_runProperties {names : List String} :
    ∀ properties : List (Token × Expr),
      (∀ name ∈ mentionedInProperties properties, name.lexeme ∈ names) →
        Ensures (State.Binds names) (State.Binds names) (runProperties properties)
  | [], _ => by
      simp only [runProperties]
      exact ensures_pure _
  | (_, value) :: properties, bound => by
      simp only [mentionedInProperties, List.forall_mem_append] at bound
      simp only [runProperties]
      apply ensures_bind (value.binds_run .value bound.1)
      intro _
      exact ensures_bind (binds_runProperties properties bound.2) fun _ => ensures_pure _

end

theorem Expr.binds_evaluate {names : List String} {expression : Expr}
    (within : expression.isWithin names = true) :
    Ensures (State.Binds names) (State.Binds names) expression.evaluate :=
  ensures_bind (expression.binds_run .value (Expr.isWithin_iff.mp within)) fun _ =>
    ensures_pure _

/-- Statements leave the frames around the innermost one as they are. -/
theorem keeps_outerFrames_runFrom (last : Value) (body : List Stmt) :
    Keeps OuterFramesKept (runFrom last body) :=
  keeps_runFrom steady_framesKept writes_framesKept framed_framesKept body
    (fun _ _ => trivial) (fun _ _ => trivial) last

mutual

/-- A statement within bound names misses no variable, and binds what it declares. -/
theorem Stmt.binds_run {names : List String} :
    ∀ statement : Stmt, statement.isWithin names = true →
      Ensures (State.Binds names) (State.Binds (statement.binds ++ names)) statement.run
  | .block body, within => by
      -- What the body declares is dropped with its frame.
      simp only [Stmt.run]
      exact binds_inNewFrame (keeps_outerFrames_runFrom .undefined body)
        (finds_runFrom body within .undefined)
  | .expression expression, within => by
      simp only [Stmt.run]
      exact Expr.binds_evaluate within
  | .branch condition positive none, within => by
      simp only [Stmt.isWithin, Bool.and_eq_true] at within
      simp only [Stmt.run]
      apply ensures_bind (Expr.binds_evaluate within.1)
      intro _
      split
      · exact positive.drops_run within.2
      · exact ensures_pure _
  | .branch condition positive (some negative), within => by
      simp only [Stmt.isWithin, Bool.and_eq_true] at within
      simp only [Stmt.run]
      apply ensures_bind (Expr.binds_evaluate within.1.1)
      intro _
      split
      · exact positive.drops_run within.1.2
      · exact negative.drops_run within.2
  | .choice condition positive none, within => by
      simp only [Stmt.isWithin, Bool.and_eq_true] at within
      simp only [Stmt.run]
      apply ensures_bind (Expr.binds_evaluate within.1)
      intro _
      split
      · exact Expr.binds_evaluate within.2
      · exact ensures_pure _
  | .choice condition positive (some negative), within => by
      simp only [Stmt.isWithin, Bool.and_eq_true] at within
      simp only [Stmt.run]
      apply ensures_bind (Expr.binds_evaluate within.1.1)
      intro _
      split
      · exact Expr.binds_evaluate within.1.2
      · exact Expr.binds_evaluate within.2
  | .declaration name none, _ => by
      simp only [Stmt.run]
      apply ensures_bind (ensures_pure _)
      intro value
      exact ensures_bind (binds_define name.lexeme value) fun _ => ensures_pure _
  | .declaration name (some initializer), within => by
      simp only [Stmt.run]
      apply ensures_bind (Expr.binds_evaluate within)
      intro value
      exact ensures_bind (binds_define name.lexeme value) fun _ => ensures_pure _

/-- What a statement declares does not count if it may not be run. -/
theorem Stmt.drops_run {names : List String} (statement : Stmt)
    (within : statement.isWithin names = true) :
    Ensures (State.Binds names) (State.Binds names) statement.run :=
  (statement.binds_run within).imp fun _ binds => binds.mono (List.subset_append_right _ _)

/-- A list of statements within bound names misses no variable. -/
theorem finds_runFrom {names : List String} :
    ∀ body : List Stmt, bodyIsWithin names body = true → ∀ last,
      Ensures (State.Binds names) State.FindsVariables (runFrom last body)
  | [], _, _ => by
      simp only [runFrom]
      exact (ensures_pure _).imp fun _ binds => binds.finds
  | statement :: body, within, _ => by
      simp only [bodyIsWithin, Bool.and_eq_true] at within
      simp only [runFrom]
      exact ensures_bind (statement.binds_run within.1) fun value =>
        finds_runFrom body within.2 value

end

/-- A program that is within the names its scope binds never misses a variable: whatever else goes
wrong, whichever branches are taken, and whatever its own declarations shadow. -/
theorem evaluate_finds_variables (program : List Stmt) (scope : Scope) (heap : Heap)
    (within : bodyIsWithin scope.names program = true) :
    ∀ error ∈ (evaluate program ⟨heap, scope, #[]⟩).2.errors, ∀ name,
      error.fault ≠ .undefinedVariable name := by
  have opened : State.Binds scope.names ⟨heap, .ofList false [] :: scope, #[]⟩ :=
    ⟨List.cons_ne_nil _ _, fun _ member => member, nofun⟩
  exact (finds_runFrom program within .undefined).after _ opened

/-- A readonly variable is assigned to and a property of `null` is read, but each variable is
found: a block declares `copy` from what is around it. -/
theorem evaluate_finds_variables_in_block :
    let given : Token := ⟨.identifier, "given", 1⟩
    let copy : Token := ⟨.identifier, "copy", 1⟩
    let program : List Stmt :=
      [.block [.declaration copy (some (.variable given)),
        .branch (.get (.variable copy) (.field given)) (.expression (.variable copy)) none],
       .expression (.assign given (.literal .null))]
    let scope : Scope := [.ofList true [("given", .null)]]
    bodyIsWithin scope.names program = true ∧
      (evaluate program ⟨.empty, scope, #[]⟩).2.errors.size = 2 ∧
        ∀ error ∈ (evaluate program ⟨.empty, scope, #[]⟩).2.errors, ∀ name,
          error.fault ≠ .undefinedVariable name := by
  intro given copy program scope
  have within : bodyIsWithin scope.names program = true := by decide
  exact ⟨within, by decide, evaluate_finds_variables program scope .empty within⟩

end Descriptor
