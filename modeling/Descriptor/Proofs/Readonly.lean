import Descriptor.Compiled
import Descriptor.Proofs.Run

/-!
# Containers behind readonly frames

In a program without declarations every variable lies in a readonly frame.  A write is refused if
its target was reached by accesses from such a variable, and it does no harm if its target is a
container of its own or no container at all.  But the mark is lost when the target is an operand
of `and` or `or`, an element of an array or object literal, or what an assignment or another write
gives: a write to such a target can change an argument or a global.

The origin of a target tells these cases apart.  Calls of programs without declarations change no
container that was there before, as long as every write target has a safe origin, and no further
origin can be allowed.
-/

namespace Descriptor

/-! ## Where the target of a write comes from -/

/-- What a write target is, accesses and parentheses aside. -/
inductive Origin where
  /-- A variable, or what accesses reach from it. -/
  | named
  /-- Never a container: a literal, or the result of an operator other than `and` and `or`. -/
  | scalar
  /-- An array or object literal. -/
  | fresh
  /-- What accesses reach from an array or object literal. -/
  | element
  /-- The result of `and` or `or`. -/
  | operand
  /-- The result of an assignment. -/
  | assignment
  /-- The result of a property write. -/
  | write
  deriving DecidableEq

/-- Whether an operator gives one of its operands. -/
def BinaryOperator.givesOperand : BinaryOperator → Bool
  | .and | .or => true
  | _ => false

/-- The origin of what is reached by an access. -/
def Origin.access : Origin → Origin
  | .fresh => .element
  | origin => origin

/-- Where the value of an expression comes from. -/
def Expr.origin : Expr → Origin
  | .literal _ => .scalar
  | .variable _ => .named
  | .group inner => inner.origin
  | .array _ => .fresh
  | .object _ => .fresh
  | .unary _ _ _ => .scalar
  | .binary _ operator _ _ => if operator.givesOperand then .operand else .scalar
  | .get holder _ => holder.origin.access
  | .assign _ _ => .assignment
  | .set _ _ _ => .write

/-- The origins whose targets can be written to without harm to containers that were there
before. -/
def Origin.Safe (origin : Origin) : Prop :=
  origin = .named ∨ origin = .scalar ∨ origin = .fresh

instance (origin : Origin) : Decidable origin.Safe :=
  inferInstanceAs (Decidable (_ ∨ _))

/-! ## What a call may change -/

/-- The containers that can be reached from some values. -/
inductive Heap.Reachable (heap : Heap) (roots : List Value) : Location → Prop where
  | root {location : Location} (isRoot : .container location ∈ roots) :
      Reachable heap roots location
  | inside {outer location : Location} {container : Container}
      (reached : Reachable heap roots outer) (found : heap.get? outer = some container)
      (held : .container location ∈ container.values) : Reachable heap roots location

namespace Compiled

/-- The statements that a call evaluates. -/
def statements (compiled : Compiled) : List Stmt :=
  match compiled.program with
  | .ok program => program
  | .error _ => []

/-- The values that a call is given: the globals and the arguments. -/
def roots (compiled : Compiled) (arguments : List Value) : List Value :=
  compiled.globals.bindings.entries.map Prod.snd ++ arguments

/-- No call changes a container that can be reached from a global or an argument. -/
def KeepsContainers (compiled : Compiled) : Prop :=
  ∀ arguments heap location container, heap.Reachable (compiled.roots arguments) location →
    heap.get? location = some container →
      (compiled.call arguments heap).2.get? location = some container

end Compiled

/-! ## Sealed scopes -/

namespace Scope

/-- Whether all variables lie in readonly frames. -/
def Sealed (scope : Scope) : Prop :=
  ∀ frame ∈ scope, ∀ name value, frame.bindings.get? name = some value → frame.readonly = true

theorem sealed_cons_empty {scope : Scope} (isSealed : scope.Sealed) :
    Sealed (.ofList false [] :: scope) := by
  intro frame member name value found
  rcases List.mem_cons.mp member with rfl | member
  · simp [Frame.ofList, Record.ofList, Record.insertAll] at found
  · exact isSealed frame member name value found

/-- In a sealed scope every variable is readonly. -/
theorem readonly_of_lookup?_eq_some {scope : Scope} (isSealed : scope.Sealed) {name : String}
    {binding : Binding} (found : scope.lookup? name = some binding) :
    binding.readonly = true := by
  induction scope with
  | nil => simp [lookup?] at found
  | cons frame outer ih =>
      simp only [lookup?] at found
      split at found
      · rename_i value here
        cases found
        exact isSealed frame List.mem_cons_self name value here
      · exact ih (fun frame member => isSealed frame (List.mem_cons_of_mem _ member)) found

/-- In a sealed scope no assignment is done. -/
theorem assign_ne_done {scope : Scope} (isSealed : scope.Sealed) (name : String) (value : Value)
    (after : Scope) : scope.assign name value ≠ .done after := by
  induction scope generalizing after with
  | nil => simp [assign]
  | cons frame outer ih =>
      intro done
      simp only [assign] at done
      split at done
      · rename_i current here
        rw [if_pos (isSealed frame List.mem_cons_self name current here)] at done
        contradiction
      · have outerSealed : Sealed outer := fun frame member =>
          isSealed frame (List.mem_cons_of_mem _ member)
        split at done
        · rename_i outer' assigned
          exact ih outerSealed outer' assigned
        · rename_i notDone
          exact notDone after done

end Scope

/-! ## Where targets of safe origin lie -/

/-- No unary operator gives a container. -/
theorem UnaryOperator.apply_ne_container (operator : UnaryOperator) (heap : Heap)
    (right : Value) (location : Location) : operator.apply heap right ≠ .container location := by
  rcases operator with _ | _ | (_ | _) <;> simp [apply]

/-- Only `and` and `or` give containers. -/
theorem BinaryOperator.apply_ne_container {operator : BinaryOperator}
    (computes : operator.givesOperand = false) (heap : Heap) (left right : Value)
    (location : Location) : operator.apply heap left right ≠ .container location := by
  cases operator <;> simp_all [givesOperand, apply]

theorem BinaryOperator.isDecidedBy_eq_false {operator : BinaryOperator}
    (computes : operator.givesOperand = false) (left : Value) :
    operator.isDecidedBy left = false := by
  cases operator <;> simp_all [givesOperand, isDecidedBy]

theorem Literal.toValue_ne_container (literal : Literal) (location : Location) :
    literal.toValue ≠ .container location := by
  cases literal <;> simp [toValue]

namespace Expr

/-- A target reached from a variable of a sealed scope is marked, if it is a container at all. -/
theorem readonly_or_ne_container :
    ∀ {target : Expr}, target.origin = .named ∨ target.origin = .scalar →
      ∀ {state : State}, state.scope.Sealed →
        (target.run .place state).1.readonly = true ∨
          ∀ location, (target.run .place state).1.value ≠ .container location
  | .literal written, _, _, _ => by
      right
      intro location
      simpa [Expr.run] using written.toValue_ne_container location
  | .variable name, _, state, isSealed => by
      simp only [Expr.run, Run.run_bind, Run.read]
      cases found : state.scope.lookup? name.lexeme with
      | some binding =>
          left
          simpa using Scope.readonly_of_lookup?_eq_some isSealed found
      | none =>
          right
          simp
  | .group inner, safe, state, isSealed => by
      simp only [Expr.run]
      exact inner.readonly_or_ne_container safe isSealed
  | .array _, safe, _, _ => by simp [origin] at safe
  | .object _, safe, _, _ => by simp [origin] at safe
  | .unary operator _ _, _, _, _ => by
      right
      intro location
      simp only [Expr.run, Run.run_bind, Run.run_pure]
      exact operator.apply_ne_container _ _ location
  | .binary left operator _ right, safe, state, _ => by
      right
      intro location
      have computes : operator.givesOperand = false := by
        cases gives : operator.givesOperand with
        | false => rfl
        | true => simp [origin, gives] at safe
      simp only [Expr.run, Run.run_bind, operator.isDecidedBy_eq_false computes]
      exact operator.apply_ne_container computes _ _ _ location
  | .get holder accessor, safe, state, isSealed => by
      have holderSafe : holder.origin = .named ∨ holder.origin = .scalar := by
        revert safe
        simp only [origin]
        cases holder.origin <;> simp [Origin.access]
      simp only [Expr.run, Run.run_bind, Run.run_pure]
      rcases holder.readonly_or_ne_container holderSafe isSealed with marked | noContainer
      · exact .inl marked
      · right
        intro location
        have noProperty : ∀ heap : Heap, ∀ key,
            heap.property? (holder.run .place state).1.value key = none := by
          intro heap key
          cases value : (holder.run .place state).1.value with
          | container location => exact absurd value (noContainer location)
          | _ => rfl
        simp [Run.property, noProperty]
  | .assign _ _, safe, _, _ => by simp [origin] at safe
  | .set _ _ _, safe, _, _ => by simp [origin] at safe

/-- An array or object literal is a container that was not there before. -/
theorem fresh_of_origin_eq_fresh :
    ∀ {target : Expr}, target.origin = .fresh → ∀ {state : State},
      ∃ location, state.heap.containers.size ≤ location ∧
        (target.run .place state).1.value = .container location
  | .group inner, isFresh, state => by
      simp only [Expr.run]
      exact inner.fresh_of_origin_eq_fresh isFresh
  | .array elements, _, state => by
      refine ⟨_, ?_, rfl⟩
      exact keeps_runElements Run.steady_sizeKept Run.writes_sizeKept elements
        (fun _ _ => trivial) state
  | .object properties, _, state => by
      refine ⟨_, ?_, rfl⟩
      exact keeps_runProperties Run.steady_sizeKept Run.writes_sizeKept properties
        (fun _ _ => trivial) state
  | .get holder _, isFresh, _ => by
      revert isFresh
      simp only [origin]
      cases holder.origin <;> simp [Origin.access]
  | .literal _, isFresh, _ => by simp [origin] at isFresh
  | .variable _, isFresh, _ => by simp [origin] at isFresh
  | .unary _ _ _, isFresh, _ => by simp [origin] at isFresh
  | .binary _ operator _ _, isFresh, _ => by
      cases gives : operator.givesOperand <;> simp [origin, gives] at isFresh
  | .assign _ _, isFresh, _ => by simp [origin] at isFresh
  | .set _ _ _, isFresh, _ => by simp [origin] at isFresh

/-- A target of safe origin is marked, or it is no container that was there before. -/
theorem readonly_or_new_of_safe {target : Expr} (safe : target.origin.Safe) {state : State}
    (isSealed : state.scope.Sealed) :
    (target.run .place state).1.readonly = true ∨
      ∀ location, (target.run .place state).1.value = .container location →
        state.heap.containers.size ≤ location := by
  rcases or_assoc.mpr safe with marked | isFresh
  · apply (readonly_or_ne_container marked isSealed).imp_right
    intro noContainer location isContainer
    exact absurd isContainer (noContainer location)
  · right
    rcases fresh_of_origin_eq_fresh isFresh with ⟨fresh, new, isContainer⟩
    intro location same
    rw [isContainer, Value.container.injEq] at same
    exact same ▸ new

end Expr

/-! ## Runs in sealed scopes -/

namespace Run

/-- From a sealed scope the scope stays as it is, and so do all containers.  New ones are added
behind them. -/
def SealedKept (before after : State) : Prop :=
  before.scope.Sealed → after.scope = before.scope ∧
    before.heap.containers.size ≤ after.heap.containers.size ∧
      ∀ location < before.heap.containers.size,
        after.heap.get? location = before.heap.get? location

theorem keeps_sealedKept_of_eq {α : Type} {run : Run α}
    (scope : ∀ state, (run state).2.scope = state.scope)
    (heap : ∀ state, (run state).2.heap = state.heap) : Keeps SealedKept run := by
  intro state _
  rw [scope, heap]
  exact ⟨rfl, Nat.le_refl _, fun _ _ => rfl⟩

theorem SealedKept.trans {first second third : State} (left : SealedKept first second)
    (right : SealedKept second third) : SealedKept first third := by
  intro isSealed
  rcases left isSealed with ⟨leftScope, leftSize, leftSame⟩
  rcases right (leftScope ▸ isSealed) with ⟨rightScope, rightSize, rightSame⟩
  refine ⟨rightScope.trans leftScope, Nat.le_trans leftSize rightSize, ?_⟩
  intro location old
  exact (rightSame location (Nat.lt_of_lt_of_le old leftSize)).trans (leftSame location old)

theorem keeps_sealedKept_assign (name : Token) (value : Value) :
    Keeps SealedKept (assign name value) := by
  intro state isSealed
  rw [heap_assign]
  refine ⟨?_, Nat.le_refl _, fun _ _ => rfl⟩
  unfold assign
  split
  · rename_i scope done
    exact absurd done (Scope.assign_ne_done isSealed _ _ _)
  · rfl
  · rfl

theorem steady_sealedKept : Steady SealedKept where
  refl _ _ := ⟨rfl, Nat.le_refl _, fun _ _ => rfl⟩
  trans := SealedKept.trans
  read name := keeps_sealedKept_of_eq (scope_read name) (heap_read name)
  assign := keeps_sealedKept_assign
  alloc container _ _ :=
    ⟨rfl, steady_sizeKept.alloc container _, fun _ old => Heap.get?_alloc_of_lt _ container old⟩
  property token object key :=
    keeps_sealedKept_of_eq (scope_property token object key) (heap_property token object key)

/-- A write that is refused, or that goes to a container that was not there in `before`, changes
nothing that was there. -/
theorem SealedKept.setProperty {before state : State} (kept : SealedKept before state)
    (token : Token) {target : Binding} (key : Key) (value : Value)
    (place : target.readonly = true ∨ ∀ location, target.value = .container location →
      before.heap.containers.size ≤ location) :
    SealedKept before (Run.setProperty token target key value state).2 := by
  intro isSealed
  rcases kept isSealed with ⟨scope, size, same⟩
  rw [scope_setProperty]
  rcases heap_setProperty token target key value state with
    unwritten | ⟨location, container, isMutable, isContainer, written⟩
  · rw [unwritten]
    exact ⟨scope, size, same⟩
  · rw [written, Heap.size_set]
    refine ⟨scope, size, ?_⟩
    intro other old
    have new : before.heap.containers.size ≤ location := by
      rcases place with isReadonly | new
      · rw [isMutable] at isReadonly
        contradiction
      · exact new location isContainer
    have different : location ≠ other := Nat.ne_of_gt (Nat.lt_of_lt_of_le old new)
    rw [Heap.get?_set_of_ne _ _ different]
    exact same other old

/-- A write to a target of safe origin changes no container that was there before its target was
evaluated. -/
theorem writes_sealedKept : Writes SealedKept (·.origin.Safe) := by
  intro object accessor value safe objectKept keyKept valueKept purpose state isSealed
  have parts := (objectKept state).trans ((keyKept _).trans (valueKept _))
  exact parts.setProperty _ _ _ (Expr.readonly_or_new_of_safe safe isSealed) isSealed

/-- Without declarations the scope in a frame stays sealed as well. -/
theorem framed_sealedKept : Framed SealedKept SealedKept fun _ => False where
  trans := SealedKept.trans
  of_outside := id
  define _ _ declared := declared.elim
  frame body keeps state isSealed := by
    obtain ⟨scope, size, same⟩ :=
      keeps { state with scope := .ofList false [] :: state.scope }
        (Scope.sealed_cons_empty isSealed)
    refine ⟨?_, size, same⟩
    exact congrArg List.tail scope

end Run

/-! ## Calls -/

namespace Compiled

/-- A call evaluates the statements in the scope of its arguments and globals. -/
theorem heap_call (compiled : Compiled) (arguments : List Value) (heap : Heap) :
    (compiled.call arguments heap).2 =
      (evaluate compiled.statements ⟨heap, compiled.scope arguments, #[]⟩).2.heap := by
  unfold call statements
  cases compiled.program <;> rfl

theorem sealed_scope (source : String) (options : Options) (arguments : List Value) :
    ((compile source options).scope arguments).Sealed := by
  intro frame member name value _
  simp only [scope, List.mem_cons, List.not_mem_nil, or_false] at member
  rcases member with rfl | rfl <;> rfl

/-- A call of a program without declarations, all of whose writes have targets of safe origin,
changes no container that was there before. -/
theorem keepsContainers_of_safe {source : String} {options : Options}
    (undeclared : declaredInBody (compile source options).statements = [])
    (safe : ∀ target ∈ targetsOfBody (compile source options).statements, target.origin.Safe) :
    (compile source options).KeepsContainers := by
  intro arguments heap location container _ found
  have kept := keeps_evaluate Run.steady_sealedKept Run.writes_sealedKept Run.framed_sealedKept
    (compile source options).statements safe (by simp [undeclared])
    ⟨heap, (compile source options).scope arguments, #[]⟩
  rcases kept (sealed_scope source options arguments) with ⟨-, -, same⟩
  rcases Array.getElem?_eq_some_iff.mp found with ⟨old, -⟩
  rw [heap_call]
  exact (same location old).trans found

end Compiled

/-! ## Targets of other origins -/

namespace Origin

/-- A descriptor that writes to its argument `a` through a target of an origin that is not safe. -/
def leak : Origin → String
  | .element => "%\x7bk: a\x7d.k.x = true"
  | .operand => "(a or null).x = true"
  | .assignment => "(a = null).x = true"
  | .write => "(%\x7b\x7d.y = a).x = true"
  | _ => ""

/-- The leaking descriptor of an origin as a function of `a`. -/
def leaking (origin : Origin) : Compiled :=
  compile origin.leak { parameters := ["a"] }

/-- A heap with a single object, whose property `x` is `false`. -/
def singleObject : Heap :=
  ⟨#[.object ⟨[("x", .bool false)]⟩]⟩

theorem statements_leaking {origin : Origin} (harmful : ¬origin.Safe) :
    declaredInBody origin.leaking.statements = [] ∧
      ∀ target ∈ targetsOfBody origin.leaking.statements,
        target.origin.Safe ∨ target.origin = origin := by
  cases origin with
  | named => exact absurd (.inl rfl) harmful
  | scalar => exact absurd (.inr (.inl rfl)) harmful
  | fresh => exact absurd (.inr (.inr rfl)) harmful
  | element => decide +kernel
  | operand => decide +kernel
  | assignment => decide +kernel
  | write => decide +kernel

/-- The object is an argument of the call and has another property `x` after it. -/
theorem call_leaking {origin : Origin} (harmful : ¬origin.Safe) :
    (origin.leaking.call [.container 0] singleObject).2.get? 0 =
      some (.object ⟨[("x", .bool true)]⟩) := by
  cases origin with
  | named => exact absurd (.inl rfl) harmful
  | scalar => exact absurd (.inr (.inl rfl)) harmful
  | fresh => exact absurd (.inr (.inr rfl)) harmful
  | element => decide +kernel
  | operand => decide +kernel
  | assignment => decide +kernel
  | write => decide +kernel

theorem not_keepsContainers_leaking {origin : Origin} (harmful : ¬origin.Safe) :
    ¬origin.leaking.KeepsContainers := by
  intro keeps
  have unchanged := keeps [.container 0] singleObject 0 (.object ⟨[("x", .bool false)]⟩)
    (.root (List.mem_append_right _ List.mem_cons_self)) rfl
  rw [call_leaking harmful] at unchanged
  revert unchanged
  decide

end Origin

/-- Programs without declarations keep what globals and arguments hold exactly as long as every
write has a target of safe origin: any further origin lets some descriptor change an argument. -/
theorem keepsContainers_iff_origin_safe (origin : Origin) :
    (∀ source options, declaredInBody (compile source options).statements = [] →
      (∀ target ∈ targetsOfBody (compile source options).statements,
        target.origin.Safe ∨ target.origin = origin) →
          (compile source options).KeepsContainers) ↔ origin.Safe := by
  constructor
  · intro keeps
    apply Decidable.byContradiction
    intro harmful
    rcases Origin.statements_leaking harmful with ⟨undeclared, allowed⟩
    exact Origin.not_keepsContainers_leaking harmful (keeps _ _ undeclared allowed)
  · intro safe source options undeclared allowed
    apply Compiled.keepsContainers_of_safe undeclared
    intro target member
    rcases allowed target member with isSafe | rfl
    · exact isSafe
    · exact safe

/-- The operands of `or` are not marked: without any declaration, this descriptor writes to its
argument. -/
theorem or_target_changes_argument :
    declaredInBody (compile "(a or null).x = true" { parameters := ["a"] }).statements = [] ∧
      ¬(compile "(a or null).x = true" { parameters := ["a"] }).KeepsContainers := by
  have harmful : ¬Origin.operand.Safe := by decide
  have leaking : Origin.operand.leaking =
      compile "(a or null).x = true" { parameters := ["a"] } := rfl
  rw [← leaking]
  exact ⟨(Origin.statements_leaking harmful).1, Origin.not_keepsContainers_leaking harmful⟩

end Descriptor
