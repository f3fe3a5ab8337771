import Descriptor.Proofs.Scoping

/-!
# The frames that own variables

A name belongs to its owner, the innermost frame that binds it.  An assignment looks for the owner
and for nothing else: a mutable owner gets the new value, a readonly one refuses it, and where no
frame binds the name nothing is assigned.

A chain with an owner falls into the frames inside the owner, which do not bind the name, the owner
and the frames around it.  A lookup from a frame further out is a lookup in the rest of the chain,
so what such lookups give can be read off the three parts.
-/

namespace Descriptor

namespace Scope

/-- The chain as it is seen from a frame further out, by the number of frames that are left. -/
def outwards (scope : Scope) (depth : Nat) : Scope :=
  scope.drop depth

/-- The chain consists of `inner` frames that do not bind the name, a frame that binds it to
`current`, and `outer` frames. -/
structure Owned (name : String) (scope inner : Scope) (owner : Frame) (current : Value)
    (outer : Scope) : Prop where
  parts : scope = inner ++ owner :: outer
  hidden : ∀ frame ∈ inner, frame.bindings.get? name = none
  bound : owner.bindings.get? name = some current

variable {name : String} {scope inner outer : Scope} {owner : Frame} {current value : Value}

/-- Every name has an owner, unless no frame binds it. -/
theorem exists_owned_or_unbound (name : String) (scope : Scope) :
    (∃ inner owner current outer, Owned name scope inner owner current outer) ∨
      name ∉ scope.names := by
  induction scope with
  | nil => exact .inr (List.not_mem_nil)
  | cons frame scope ih =>
      cases here : frame.bindings.get? name with
      | some current =>
          exact .inl ⟨[], frame, current, scope, rfl, List.forall_mem_nil _, here⟩
      | none =>
          rcases ih with ⟨inner, owner, current, outer, parts, hidden, bound⟩ | unbound
          · left
            exact ⟨frame :: inner, owner, current, outer, by rw [parts, List.cons_append],
              List.forall_mem_cons.mpr ⟨here, hidden⟩, bound⟩
          · right
            rw [names_cons, List.mem_append, not_or, ← Record.get?_eq_none_iff]
            exact ⟨here, unbound⟩

/-- Frames that do not bind a name are passed when it is looked up. -/
theorem lookup?_append (hidden : ∀ frame ∈ inner, frame.bindings.get? name = none)
    (scope : Scope) : lookup? name (inner ++ scope) = scope.lookup? name := by
  induction inner with
  | nil => rfl
  | cons frame inner ih =>
      rcases List.forall_mem_cons.mp hidden with ⟨here, behind⟩
      rw [List.cons_append, lookup?, here, ih behind]

/-- Frames that do not bind a name are passed when it is assigned to. -/
theorem assign_append (hidden : ∀ frame ∈ inner, frame.bindings.get? name = none)
    (value : Value) (scope : Scope) :
    assign name value (inner ++ scope) =
      match scope.assign name value with
      | .done after => .done (inner ++ after)
      | other => other := by
  induction inner with
  | nil => cases assigned : scope.assign name value <;> simp [assigned]
  | cons frame inner ih =>
      rcases List.forall_mem_cons.mp hidden with ⟨here, behind⟩
      rw [List.cons_append, assign, here, ih behind]
      cases scope.assign name value <;> rfl

namespace Owned

/-- What a name means is what it is bound to in its owner. -/
theorem lookup? (owned : Owned name scope inner owner current outer) :
    scope.lookup? name = some ⟨current, owner.readonly⟩ := by
  rw [owned.parts, lookup?_append owned.hidden, Scope.lookup?, owned.bound]

/-- The owner is the same from every frame inside. -/
theorem outwards (owned : Owned name scope inner owner current outer) {depth : Nat}
    (inside : depth ≤ inner.length) :
    Owned name (scope.outwards depth) (inner.drop depth) owner current outer where
  parts := by rw [Scope.outwards, owned.parts, List.drop_append_of_le_length inside]
  hidden frame member := owned.hidden frame (List.mem_of_mem_drop member)
  bound := owned.bound

/-- The owner owns the name with any other value as well. -/
theorem define (owned : Owned name scope inner owner current outer) (value : Value) :
    Owned name (inner ++ owner.define name value :: outer) inner (owner.define name value) value
      outer where
  parts := rfl
  hidden := owned.hidden
  bound := Record.get?_insert_self owner.bindings name value

/-- A readonly owner refuses the value. -/
theorem assign_of_readonly (owned : Owned name scope inner owner current outer)
    (isReadonly : owner.readonly = true) (value : Value) :
    scope.assign name value = .refused current := by
  rw [owned.parts, assign_append owned.hidden, assign, owned.bound]
  simp only [isReadonly, if_true]

/-- A mutable owner gets the value, and all other frames stay as they are. -/
theorem assign_of_mutable (owned : Owned name scope inner owner current outer)
    (isMutable : owner.readonly = false) (value : Value) :
    scope.assign name value = .done (inner ++ owner.define name value :: outer) := by
  rw [owned.parts, assign_append owned.hidden, assign, owned.bound]
  simp only [isMutable, Bool.false_eq_true, if_false]

end Owned

/-- Another value for a name makes no difference to other names, from whichever frame they are
looked up. -/
theorem lookup?_outwards_define {other : String} (ne : other ≠ name) (inner : Scope)
    (owner : Frame) (value : Value) (outer : Scope) (depth : Nat) :
    (outwards (inner ++ owner.define name value :: outer) depth).lookup? other =
      (outwards (inner ++ owner :: outer) depth).lookup? other := by
  induction inner generalizing depth with
  | nil =>
      cases depth with
      | zero =>
          simp only [outwards, List.nil_append, List.drop_zero, lookup?, Frame.define,
            Record.get?_insert_of_ne _ _ ne]
      | succ depth => rfl
  | cons frame inner ih =>
      cases depth with
      | zero =>
          have behind := ih 0
          simp only [outwards, List.drop_zero] at behind
          simp only [outwards, List.cons_append, List.drop_zero, lookup?, behind]
      | succ depth => exact ih depth

/-- Frames around the owner do not see that it has changed. -/
theorem outwards_of_outside (inner : Scope) (owner owner' : Frame) (outer : Scope) {depth : Nat}
    (outside : inner.length < depth) :
    outwards (inner ++ owner :: outer) depth = outwards (inner ++ owner' :: outer) depth := by
  obtain ⟨further, rfl⟩ : ∃ further, depth = inner.length + 1 + further :=
    Nat.exists_eq_add_of_le outside
  have around (frame : Frame) : outwards (inner ++ frame :: outer) (inner.length + 1 + further) =
      outer.drop further := by
    rw [outwards, ← List.drop_drop, ← List.drop_drop, List.drop_left, List.drop_one, List.tail_cons]
  rw [around, around]

end Scope

namespace Run

/-- What an assignment to a name leaves as it is in every case: the containers, the names of every
frame, and what all other names mean, from whichever frame they are looked up. -/
structure AssignedAlone (name : String) (before after : State) : Prop where
  heap : after.heap = before.heap
  names : after.scope.map (·.bindings.names) = before.scope.map (·.bindings.names)
  others : ∀ other, other ≠ name → ∀ depth,
    (after.scope.outwards depth).lookup? other = (before.scope.outwards depth).lookup? other

theorem assignedAlone_report (name : String) (state : State) (token : Token)
    (fault : RuntimeFault) : AssignedAlone name state (state.report token fault) :=
  ⟨rfl, rfl, fun _ _ _ => rfl⟩

end Run

open Scope Run

/-- Exactly the owner of a name decides what comes of an assignment to it.

If it is mutable, nothing is reported, the value is given, the name has it when it is looked up
from the owner or from any frame inside, and the frames around the owner are as they were.  If it
is readonly, or if there is none, exactly one error is reported, the frames are as they were, and
the value that the name has, or `undefined`, is given. -/
theorem assign_outcome (name : Token) (value : Value) (state : State) :
    ((∃ inner owner current outer,
        Owned name.lexeme state.scope inner owner current outer ∧ owner.readonly = false ∧
        (Run.assign name value state).1 = value ∧
        (Run.assign name value state).2.errors = state.errors ∧
        (∀ depth ≤ inner.length,
          ((Run.assign name value state).2.scope.outwards depth).lookup? name.lexeme =
            some ⟨value, false⟩) ∧
        (∀ depth > inner.length,
          (Run.assign name value state).2.scope.outwards depth = state.scope.outwards depth)) ∨
      (∃ inner owner current outer,
        Owned name.lexeme state.scope inner owner current outer ∧ owner.readonly = true ∧
        Run.assign name value state = (current, state.report name (.readonly name.lexeme))) ∨
      (name.lexeme ∉ state.scope.names ∧
        Run.assign name value state =
          (.undefined, state.report name (.undefinedVariable name.lexeme)))) ∧
      AssignedAlone name.lexeme state (Run.assign name value state).2 := by
  rcases exists_owned_or_unbound name.lexeme state.scope with
    ⟨inner, owner, current, outer, owned⟩ | unbound
  · cases isReadonly : owner.readonly with
    | false =>
        have assigned : Run.assign name value state =
            (value, { state with scope := inner ++ owner.define name.lexeme value :: outer }) := by
          rw [Run.assign, owned.assign_of_mutable isReadonly]
        rw [assigned]
        refine ⟨.inl ⟨inner, owner, current, outer, owned, isReadonly, rfl, rfl, ?_, ?_⟩,
          rfl, ?_, ?_⟩
        · intro depth inside
          rw [((owned.define value).outwards inside).lookup?, Frame.define, isReadonly]
        · intro depth outside
          rw [owned.parts]
          exact outwards_of_outside inner _ owner outer outside
        · have sameNames := Record.names_insert_of_get?_eq_some owned.bound value
          simp only [owned.parts, List.map_append, List.map_cons, Frame.define, sameNames]
        · intro other ne depth
          rw [owned.parts]
          exact lookup?_outwards_define ne inner owner value outer depth
    | true =>
        have assigned : Run.assign name value state =
            (current, state.report name (.readonly name.lexeme)) := by
          rw [Run.assign, owned.assign_of_readonly isReadonly]
        exact ⟨.inr (.inl ⟨inner, owner, current, outer, owned, isReadonly, assigned⟩),
          assigned ▸ assignedAlone_report name.lexeme state name _⟩
  · have assigned : Run.assign name value state =
        (.undefined, state.report name (.undefinedVariable name.lexeme)) := by
      rw [Run.assign, assign_eq_unbound_iff.mpr unbound]
    exact ⟨.inr (.inr ⟨unbound, assigned⟩),
      assigned ▸ assignedAlone_report name.lexeme state name _⟩

end Descriptor
