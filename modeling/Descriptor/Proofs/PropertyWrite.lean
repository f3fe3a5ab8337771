import Descriptor.Proofs.Ownership

/-!
# What a property write does

A write evaluates its target, its key and its value, in this order, and then either writes the value
to one slot of one container or reports one error and leaves all containers as they are.  Which of
the two comes about, and which error, depends on nothing but the target, the key and the heap as it
is then: `set_outcome`.

A target carries the mark of a readonly frame only along accesses and parentheses from a variable,
so the refusal of a readonly write can be read off the form of the target and the frame that owns
the variable.
-/

namespace Descriptor

/-! ## Slots -/

/-- The elements of an array before and after `value` was written to a position.  The array grows up
to the position if it was shorter. -/
structure ElementWritten (position : Nat) (value : Value) (before after : List Value) : Prop where
  length : after.length = max before.length (position + 1)
  written : after[position]? = some value
  gap : ∀ index, before.length ≤ index → index < position → after[index]? = some .undefined
  kept : ∀ index < before.length, index ≠ position → after[index]? = before[index]?

/-- The entries of an object before and after `value` was written under a name: it takes the place
of the value that was there, or comes last. -/
inductive EntryWritten (name : String) (value : Value) :
    List (String × Value) → List (String × Value) → Prop where
  | inPlace {front behind : List (String × Value)} {old : Value}
      (isFirst : name ∉ front.map Prod.fst) :
      EntryWritten name value (front ++ (name, old) :: behind) (front ++ (name, value) :: behind)
  | appended {entries : List (String × Value)} (isNew : name ∉ entries.map Prod.fst) :
      EntryWritten name value entries (entries ++ [(name, value)])

/-- The index counts as the number of an array position: a natural number up to `2 ^ 32 - 2`. -/
def Key.Addresses (heap : Heap) (key : Key) (position : Nat) : Prop :=
  ∃ index, key = .indexed index ∧
    Binary64.toInt? (index.toNumber heap) = some (position : Int) ∧ position ≤ 4294967294

/-- A container before and after `value` was written to the slot that the key addresses. -/
inductive Container.SlotWritten (heap : Heap) (key : Key) (value : Value) :
    Container → Container → Prop where
  | element {position : Nat} {before after : List Value} (addressed : key.Addresses heap position)
      (near : position ≤ before.length + 65536)
      (written : ElementWritten position value before after) :
      SlotWritten heap key value (.array before) (.array after)
  | entry {before after : Record Value}
      (written : EntryWritten (key.text heap) value before.entries after.entries) :
      SlotWritten heap key value (.object before) (.object after)

/-- The containers before and after `value` was written to the slot of `object` that the key
addresses.  No other container has changed, and none has been added. -/
def Heap.SlotWritten (before : Heap) (object : Value) (key : Key) (value : Value)
    (after : Heap) : Prop :=
  ∃ location old new, object = .container location ∧ before.get? location = some old ∧
    after.get? location = some new ∧ old.SlotWritten before key value new ∧
      ∀ other, other ≠ location → after.get? other = before.get? other

/-! ## Refusals -/

/-- Why a write is refused, and what it gives then.  Only a readonly target has a value that it can
give, the one that the property has. -/
inductive Refused (heap : Heap) (object : Binding) (key : Key) : RuntimeFault → Value → Prop where
  | readonly (marked : object.readonly = true) :
      Refused heap object key .readonlyUpdate
        ((heap.property? object.value key).getD .undefined)
  | noContainer (unmarked : object.readonly = false)
      (scalar : ∀ location, object.value = .container location → heap.get? location = none) :
      Refused heap object key .propertyDoesNotExist .undefined
  | noPosition (unmarked : object.readonly = false) {location : Location} {elements : List Value}
      (isArray : object.value = .container location)
      (found : heap.get? location = some (.array elements))
      (unaddressed : ∀ position, ¬key.Addresses heap position) :
      Refused heap object key .invalidIndex .undefined
  | tooFar (unmarked : object.readonly = false) {location : Location} {elements : List Value}
      (isArray : object.value = .container location)
      (found : heap.get? location = some (.array elements)) {position : Nat}
      (addressed : key.Addresses heap position) (far : elements.length + 65536 < position) :
      Refused heap object key (.indexTooFar position) .undefined

/-- A write is refused for the mark of its target exactly if the target is marked. -/
theorem Refused.readonlyUpdate_iff {heap : Heap} {object : Binding} {key : Key}
    {fault : RuntimeFault} {current : Value} (refused : Refused heap object key fault current) :
    fault = .readonlyUpdate ↔ object.readonly = true := by
  cases refused with
  | readonly marked => exact iff_of_true rfl marked
  | noContainer unmarked => exact iff_of_false nofun (by simp [unmarked])
  | noPosition unmarked => exact iff_of_false nofun (by simp [unmarked])
  | tooFar unmarked => exact iff_of_false nofun (by simp [unmarked])

/-! ## Writing to a slot -/

theorem Key.position?_eq_some_iff {heap : Heap} {key : Key} {position : Nat} :
    key.position? heap = some position ↔ key.Addresses heap position := by
  have last : Key.lastPosition = 4294967294 := rfl
  cases key with
  | named name => simp [position?, Addresses]
  | indexed index =>
      simp only [position?, Addresses, Key.indexed.injEq, exists_eq_left', last]
      cases Binary64.toInt? (index.toNumber heap) with
      | none => simp
      | some n =>
          simp only [Bool.and_eq_true, decide_eq_true_eq, Option.ite_none_right_eq_some,
            Option.some.injEq]
          omega

theorem elementWritten_placeAt (elements : List Value) (position : Nat) (value : Value) :
    ElementWritten position value elements (placeAt elements position value) := by
  unfold placeAt
  split
  · rename_i inside
    constructor
    · rw [List.length_set]
      omega
    · rw [List.getElem?_set_self inside]
    · intro index outside before
      omega
    · intro index _ ne
      rw [List.getElem?_set_ne ne.symm]
  · rename_i outside
    have filled : (elements ++ List.replicate (position - elements.length) Value.undefined).length =
        position := by
      rw [List.length_append, List.length_replicate]
      omega
    constructor
    · rw [List.length_append, filled, List.length_singleton]
      omega
    · rw [List.getElem?_append_right (Nat.le_of_eq filled), filled, Nat.sub_self]
      rfl
    · intro index behind before
      rw [List.getElem?_append_left (filled.symm ▸ before), List.getElem?_append_right behind,
        List.getElem?_replicate_of_lt (by omega)]
    · intro index inside _
      rw [List.getElem?_append_left (by omega), List.getElem?_append_left inside]

theorem entryWritten_put (name : String) (value : Value) (entries : List (String × Value)) :
    EntryWritten name value entries (Record.put name value entries) := by
  induction entries with
  | nil => exact .appended List.not_mem_nil
  | cons entry entries ih =>
      rcases entry with ⟨other, old⟩
      by_cases same : other = name
      · subst same
        have first : other ∉ ([] : List (String × Value)).map Prod.fst := List.not_mem_nil
        simpa [Record.put] using EntryWritten.inPlace first
      · have isOther : (other == name) = false := beq_eq_false_iff_ne.mpr same
        simp only [Record.put, isOther, Bool.false_eq_true, if_false]
        generalize Record.put name value entries = written at ih
        cases ih with
        | @inPlace front behind old' isFirst =>
            have isFirst' : name ∉ ((other, old) :: front).map Prod.fst :=
              List.not_mem_cons_of_ne_of_not_mem (Ne.symm same) isFirst
            exact .inPlace isFirst'
        | appended isNew =>
            exact .appended (List.not_mem_cons_of_ne_of_not_mem (Ne.symm same) isNew)

/-- A container whose slot is written takes the place of the old one, and no other is touched. -/
theorem Heap.slotWritten_set {heap : Heap} {location : Location} {old new : Container} {key : Key}
    {value : Value} (found : heap.get? location = some old)
    (written : old.SlotWritten heap key value new) :
    heap.SlotWritten (.container location) key value (heap.set location new) :=
  ⟨location, old, new, rfl, found, get?_set_self found new, written,
    fun _ ne => get?_set_of_ne heap new ne.symm⟩

/-- A write to a target without a mark is done or refused. -/
theorem Heap.setProperty_cases (heap : Heap) {object : Binding} (unmarked : object.readonly = false)
    (key : Key) (value : Value) :
    (∃ after, heap.SlotWritten object.value key value after ∧
      heap.setProperty object.value key value = .ok after) ∨
    ∃ fault, Refused heap object key fault .undefined ∧
      heap.setProperty object.value key value = .error fault := by
  cases isObject : object.value with
  | container location =>
      cases found : heap.get? location with
      | none =>
          refine .inr ⟨_, .noContainer unmarked ?_, by rw [setProperty, found]⟩
          intro other same
          rw [isObject, Value.container.injEq] at same
          exact same ▸ found
      | some container =>
          cases container with
          | array elements =>
              cases addressed : key.position? heap with
              | none =>
                  refine .inr ⟨_, .noPosition unmarked isObject found ?_, ?_⟩
                  · intro position isPosition
                    rw [Key.position?_eq_some_iff.mpr isPosition] at addressed
                    contradiction
                  · simp [setProperty, found, Container.setProperty, addressed, Except.map]
              | some position =>
                  have limit : growthLimit = 65536 := rfl
                  have isPosition := Key.position?_eq_some_iff.mp addressed
                  by_cases far : elements.length + growthLimit < position
                  · refine .inr ⟨_, .tooFar unmarked isObject found isPosition (limit ▸ far), ?_⟩
                    simp [setProperty, found, Container.setProperty, addressed, far, Except.map]
                  · have near : position ≤ elements.length + 65536 := limit ▸ Nat.not_lt.mp far
                    have written := elementWritten_placeAt elements position value
                    refine .inl ⟨_, slotWritten_set found (.element isPosition near written), ?_⟩
                    simp [setProperty, found, Container.setProperty, addressed, far, Except.map]
          | object properties =>
              have written : (Container.object properties).SlotWritten heap key value
                  (.object (properties.insert (key.text heap) value)) :=
                .entry (entryWritten_put (key.text heap) value properties.entries)
              refine .inl ⟨_, slotWritten_set found written, ?_⟩
              simp [setProperty, found, Container.setProperty, Except.map]
  | _ =>
      refine .inr ⟨_, .noContainer unmarked ?_, rfl⟩
      intro location same
      rw [isObject] at same
      contradiction

/-- A write is done or refused. -/
theorem Run.setProperty_cases (token : Token) (object : Binding) (key : Key) (value : Value)
    (state : State) :
    (∃ after, object.readonly = false ∧ state.heap.SlotWritten object.value key value after ∧
      setProperty token object key value state = (value, { state with heap := after })) ∨
    ∃ fault current, Refused state.heap object key fault current ∧
      setProperty token object key value state = (current, state.report token fault) := by
  cases marked : object.readonly with
  | true => exact .inr ⟨_, _, .readonly marked, by rw [setProperty, if_pos marked]⟩
  | false =>
      have unmarked : ¬object.readonly = true := Bool.eq_false_iff.mp marked
      rcases state.heap.setProperty_cases marked key value with
        ⟨after, written, done⟩ | ⟨fault, refused, failed⟩
      · exact .inl ⟨after, rfl, written, by rw [setProperty, if_neg unmarked, done]⟩
      · exact .inr ⟨fault, _, refused, by rw [setProperty, if_neg unmarked, failed]⟩

/-! ## Where a target is reached from -/

/-- The variable that an expression goes out from, if it consists of accesses and parentheses around
one. -/
def Expr.root? : Expr → Option Token
  | .variable name => some name
  | .group inner => inner.root?
  | .get holder _ => holder.root?
  | _ => none

/-- Whether a target consists of accesses and parentheses around a variable that a readonly frame
owns. -/
def Expr.ReachedThroughReadonly (target : Expr) (scope : Scope) : Prop :=
  ∃ name inner owner current outer, target.root? = some name ∧
    scope.Owned name.lexeme inner owner current outer ∧ owner.readonly = true

/-- Whether a target consists of accesses and parentheses around a variable that no frame binds.  It
counts as one of the innermost frame. -/
def Expr.ReachedThroughUnbound (target : Expr) (scope : Scope) : Prop :=
  ∃ name, target.root? = some name ∧ name.lexeme ∉ scope.names

/-- The mark of a variable is that of its owner, or of the innermost frame. -/
theorem Run.readonly_read (name : Token) (state : State) :
    (read name state).1.readonly = true ↔
      (∃ inner owner current outer, state.scope.Owned name.lexeme inner owner current outer ∧
        owner.readonly = true) ∨
      (name.lexeme ∉ state.scope.names ∧ state.scope.isReadonly = true) := by
  rcases Scope.exists_owned_or_unbound name.lexeme state.scope with
    ⟨inner, owner, current, outer, owned⟩ | unbound
  · have found := owned.lookup?
    rw [read, found]
    constructor
    · intro marked
      exact .inl ⟨inner, owner, current, outer, owned, marked⟩
    · rintro (⟨_, _, _, _, owned', isReadonly⟩ | ⟨unbound, -⟩)
      · rw [owned'.lookup?, Option.some.injEq, Binding.mk.injEq] at found
        exact found.2 ▸ isReadonly
      · rw [Scope.lookup?_eq_none_iff.mpr unbound] at found
        contradiction
  · have missing := Scope.lookup?_eq_none_iff.mpr unbound
    rw [read, missing]
    constructor
    · intro marked
      exact .inr ⟨unbound, marked⟩
    · rintro (⟨_, _, _, _, owned, -⟩ | ⟨-, marked⟩)
      · rw [owned.lookup?] at missing
        contradiction
      · exact marked

/-- A place has the mark of the variable that it goes out from, and no mark if there is none. -/
theorem Expr.readonly_run_place :
    ∀ (target : Expr) (state : State), (target.run .place state).1.readonly =
      target.root?.any fun name => (Run.read name state).1.readonly
  | .variable name, state => by
      simp only [Expr.run, Run.run_bind, Run.run_pure, root?, Option.any_some, beq_self_eq_true,
        Bool.true_and]
  | .group inner, state => by
      simp only [Expr.run, root?]
      exact inner.readonly_run_place state
  | .get holder accessor, state => by
      simp only [Expr.run, Run.run_bind, Run.run_pure, root?]
      exact holder.readonly_run_place state
  | .literal _, _ | .array _, _ | .object _, _ | .unary _ _ _, _ | .assign _ _, _
  | .set _ _ _, _ => by
      simp only [Expr.run, Run.run_bind, Run.run_pure, root?, Option.any_none]
  | .binary left operator _ right, state => by
      simp only [Expr.run, Run.run_bind, root?, Option.any_none]
      split <;> rfl

/-- A place is marked exactly if accesses and parentheses reach it from a variable of a readonly
frame, where a variable that no frame binds counts as one of the innermost frame. -/
theorem Expr.readonly_run_place_iff (target : Expr) (state : State) :
    (target.run .place state).1.readonly = true ↔
      target.ReachedThroughReadonly state.scope ∨
        (target.ReachedThroughUnbound state.scope ∧ state.scope.isReadonly = true) := by
  rw [readonly_run_place]
  cases isRoot : target.root? with
  | none => simp [ReachedThroughReadonly, ReachedThroughUnbound, isRoot]
  | some name =>
      simp only [Option.any_some, Run.readonly_read, ReachedThroughReadonly,
        ReachedThroughUnbound, isRoot, Option.some.injEq]
      constructor
      · rintro (⟨inner, owner, current, outer, owned⟩ | ⟨unbound, isReadonly⟩)
        · exact .inl ⟨name, inner, owner, current, outer, rfl, owned⟩
        · exact .inr ⟨⟨name, rfl, unbound⟩, isReadonly⟩
      · rintro (⟨_, inner, owner, current, outer, rfl, owned⟩ | ⟨⟨_, rfl, unbound⟩, isReadonly⟩)
        · exact .inl ⟨inner, owner, current, outer, owned⟩
        · exact .inr ⟨unbound, isReadonly⟩

/-! ## The frame of a body -/

/-- A kept scope has an innermost frame of the same kind. -/
theorem Scope.Kept.isReadonly {before after : Scope} (kept : Kept before after) :
    after.isReadonly = before.isReadonly := by
  cases kept with
  | nil => rfl
  | cons head _ => simp only [Scope.isReadonly, List.head?_cons, Option.any_some, head.readonly]

namespace Run

/-- The frames around the innermost one are kept, and the innermost one stays mutable or readonly
as it is. -/
def BodyFramesKept (before after : State) : Prop :=
  OuterFramesKept before after ∧ after.scope.isReadonly = before.scope.isReadonly

theorem framed_bodyFramesKept : Framed FramesKept BodyFramesKept fun _ => True where
  trans first second := ⟨first.1.trans second.1, second.2.trans first.2⟩
  of_outside kept := ⟨framed_framesKept.of_outside kept, Scope.Kept.isReadonly kept⟩
  define name value declarable state := by
    refine ⟨framed_framesKept.define name value declarable state, ?_⟩
    unfold define
    cases state.scope <;> rfl
  frame body keeps := framed_framesKept.frame body fun state => (keeps state).1

end Run

/-- A program or a block runs all of its statements with a mutable innermost frame. -/
theorem isReadonly_runFrom_inNewFrame (last : Value) (body : List Stmt) (state : State) :
    (runFrom last body
      { state with scope := .ofList false [] :: state.scope }).2.scope.isReadonly = false :=
  (keeps_runFrom Run.steady_framesKept Run.writes_framesKept Run.framed_bodyFramesKept body
    (fun _ _ => trivial) (fun _ _ => trivial) last _).2

/-- All parts of an expression are run with the same kind of innermost frame. -/
theorem Expr.isReadonly_run (expression : Expr) (purpose : Purpose) (state : State) :
    (expression.run purpose state).2.scope.isReadonly = state.scope.isReadonly :=
  Scope.Kept.isReadonly <| expression.keeps_run Run.steady_framesKept Run.writes_framesKept purpose
    (fun _ _ => trivial) state

/-! ## The whole write -/

theorem State.report_inj {state : State} {token : Token} {fault fault' : RuntimeFault}
    (same : state.report token fault = state.report token fault') : fault = fault' := by
  have last := congrArg (·.errors.back?) same
  simpa [State.report] using last

/-- A report is not a state with the errors as they are. -/
theorem State.report_ne {state after : State} (errors : after.errors = state.errors)
    (token : Token) (fault : RuntimeFault) : after ≠ state.report token fault := by
  intro same
  have sizes := congrArg (·.errors.size) same
  simp [State.report, errors] at sizes

/-- What a property write does.  Its target, its key and its value are evaluated first, in this
order.  Then either no further error is reported, the value is given, and in the heap as it was by
then exactly the slot that the key addresses is written; or exactly one further error is reported,
the heap stays as it was by then, and the write gives `undefined` or, if the target is readonly,
what the property is.  It is refused as readonly exactly if its target consists of accesses and
parentheses around a variable that a readonly frame owns.

A variable that no frame binds counts as one of the innermost frame, which is mutable wherever a
program or a block is evaluated: `isReadonly_runFrom_inNewFrame`. -/
theorem set_outcome (object : Expr) (accessor : Accessor) (value : Expr) (purpose : Purpose)
    (state : State) :
    let target := object.run .place state
    let key := accessor.runKey target.2
    let written := value.run .value key.2
    let before := written.2
    let ran := (Expr.set object accessor value).run purpose state
    ((ran.1.value = written.1.value ∧
        ∃ after, ran.2 = { before with heap := after } ∧
          before.heap.SlotWritten target.1.value key.1 written.1.value after) ∨
      ∃ fault, ran.2 = before.report accessor.token fault ∧
        Refused before.heap target.1 key.1 fault ran.1.value) ∧
    (ran.2 = before.report accessor.token .readonlyUpdate ↔
      object.ReachedThroughReadonly state.scope ∨
        (object.ReachedThroughUnbound state.scope ∧ state.scope.isReadonly = true)) ∧
    (state.scope.isReadonly = false →
      (ran.2 = before.report accessor.token .readonlyUpdate ↔
        object.ReachedThroughReadonly state.scope)) := by
  intro target key written before ran
  have isRan : ran = (⟨(Run.setProperty accessor.token target.1 key.1 written.1.value before).1,
      false⟩, (Run.setProperty accessor.token target.1 key.1 written.1.value before).2) := by
    simp only [ran, Expr.run, Run.run_bind, Run.run_pure]
    rfl
  have marked_iff : ran.2 = before.report accessor.token .readonlyUpdate ↔
      target.1.readonly = true := by
    rcases Run.setProperty_cases accessor.token target.1 key.1 written.1.value before with
      ⟨after, unmarked, -, done⟩ | ⟨fault, current, refused, failed⟩
    · have errors : ran.2.errors = before.errors := by rw [isRan, done]
      exact iff_of_false (State.report_ne errors _ _) (by simp [unmarked])
    · rw [← refused.readonlyUpdate_iff, isRan, failed]
      exact ⟨State.report_inj, fun same => by rw [same]⟩
  have refused_iff := marked_iff.trans (object.readonly_run_place_iff state)
  refine ⟨?_, refused_iff, fun isMutable => ?_⟩
  · rcases Run.setProperty_cases accessor.token target.1 key.1 written.1.value before with
      ⟨after, -, slotWritten, done⟩ | ⟨fault, current, refused, failed⟩
    · rw [isRan, done]
      exact .inl ⟨rfl, after, rfl, slotWritten⟩
    · rw [isRan, failed]
      exact .inr ⟨fault, rfl, refused⟩
  · simpa [isMutable] using refused_iff

end Descriptor
