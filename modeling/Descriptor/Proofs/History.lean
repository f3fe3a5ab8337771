import Descriptor.Proofs.Frames
import Descriptor.Proofs.Readonly
import Descriptor.Proofs.Renaming.Run

/-!
# Calls do not depend on earlier calls

A compiled descriptor keeps its globals from call to call, and the containers they refer to.  The
frame of the globals is readonly, so that a call leaves it as it was.  What may survive a call is a
change of a container.  If the program writes no property, there is none, and if the globals and
arguments are scalars, no call sees any.  In both cases a call gives what it would have given if the
descriptor had just been built: `call_independent_of_history`.
-/

namespace Descriptor

/-- A readonly frame is kept as it is. -/
theorem Frame.Kept.eq_of_readonly {before after : Frame} (kept : before.Kept after)
    (isReadonly : before.readonly = true) : after = before := by
  cases after
  cases kept.readonly
  cases kept.bindings isReadonly
  rfl

/-! ## Containers through a run without writes -/

namespace Run

/-- The containers that were there before are the same after. -/
def ContainersKept (before after : State) : Prop :=
  before.heap.containers.size ≤ after.heap.containers.size ∧
    ∀ location < before.heap.containers.size,
      after.heap.get? location = before.heap.get? location

theorem keeps_containersKept_of_heap_eq {α : Type} {run : Run α}
    (same : ∀ state, (run state).2.heap = state.heap) : Keeps ContainersKept run := by
  intro state
  unfold ContainersKept
  rw [same]
  exact ⟨Nat.le_refl _, fun _ _ => rfl⟩

theorem ContainersKept.trans {first second third : State} (left : ContainersKept first second)
    (right : ContainersKept second third) : ContainersKept first third := by
  constructor
  · exact Nat.le_trans left.1 right.1
  · intro location old
    exact (right.2 location (Nat.lt_of_lt_of_le old left.1)).trans (left.2 location old)

theorem steady_containersKept : Steady ContainersKept where
  refl _ := ⟨Nat.le_refl _, fun _ _ => rfl⟩
  trans := ContainersKept.trans
  read name := keeps_containersKept_of_heap_eq (heap_read name)
  assign name value := keeps_containersKept_of_heap_eq (heap_assign name value)
  alloc container state :=
    ⟨steady_sizeKept.alloc container state, fun _ old => Heap.get?_alloc_of_lt _ container old⟩
  property token object key := keeps_containersKept_of_heap_eq (heap_property token object key)

theorem writes_containersKept : Writes ContainersKept fun _ => False :=
  fun _ _ _ written => written.elim

theorem framed_containersKept : Framed ContainersKept ContainersKept fun _ => True where
  trans := ContainersKept.trans
  of_outside := id
  define _ _ _ state := steady_containersKept.refl state
  frame _ keeps state := keeps { state with scope := .ofList false [] :: state.scope }

end Run

namespace Heap

/-- The heap with the containers of `start` as they were. -/
def restore (start heap : Heap) : Heap :=
  ⟨start.containers ++ heap.containers.extract start.containers.size⟩

/-- Where nothing has changed, nothing is restored. -/
theorem restore_eq {start heap : Heap}
    (kept : ∀ location < start.containers.size, heap.get? location = start.get? location) :
    start.restore heap = heap := by
  simp only [get?] at kept
  have smaller : start.containers.size ≤ heap.containers.size := by
    rw [← Nat.not_lt]
    intro shorter
    have missing := kept heap.containers.size shorter
    simp [shorter] at missing
  rcases heap with ⟨containers⟩
  simp only [restore, Heap.mk.injEq]
  apply Array.ext_getElem?
  intro location
  rw [Array.getElem?_append]
  split
  · rename_i old
    exact (kept location old).symm
  · rename_i new
    have position : start.containers.size + (location - start.containers.size) = location :=
      Nat.add_sub_of_le (Nat.le_of_not_lt new)
    rw [Array.getElem?_extract, position, Nat.min_self]
    split
    · rfl
    · rename_i beyond
      have outside : containers.size ≤ location := by omega
      rw [Array.getElem?_eq_none outside]

end Heap

namespace Compiled

variable {compiled built : Compiled}

/-- A call without property writes leaves all containers as they were. -/
theorem get?_call (unwritten : targetsOfBody compiled.statements = []) (arguments : List Value)
    (heap : Heap) {location : Location} (old : location < heap.containers.size) :
    (compiled.call arguments heap).2.get? location = heap.get? location := by
  have kept := keeps_evaluate Run.steady_containersKept Run.writes_containersKept
    Run.framed_containersKept compiled.statements (by simp [unwritten]) (fun _ _ => trivial)
    ⟨heap, compiled.scope arguments, #[]⟩
  rw [heap_call]
  exact kept.2 location old

/-- The descriptor after a call, whose globals are bound as the call has left them. -/
def after (compiled : Compiled) (arguments : List Value) (heap : Heap) : Compiled :=
  let ran := evaluate compiled.statements ⟨heap, compiled.scope arguments, #[]⟩
  { compiled with globals := ran.2.scope.getLast?.getD compiled.globals }

/-- A call leaves readonly globals as they were. -/
theorem after_eq (isReadonly : compiled.globals.readonly = true) (arguments : List Value)
    (heap : Heap) : compiled.after arguments heap = compiled := by
  have kept := evaluate_keeps_frames compiled.statements ⟨heap, compiled.scope arguments, #[]⟩
  simp only [after]
  generalize (evaluate compiled.statements ⟨heap, compiled.scope arguments, #[]⟩).2.scope = scope
    at kept ⊢
  rcases kept with _ | ⟨-, _ | ⟨globals, _ | _⟩⟩
  rw [List.getLast?_cons_cons, List.getLast?_singleton, Option.getD_some,
    globals.eq_of_readonly isReadonly]

/-! ## Histories -/

/-- What a descriptor and the heap may have become since the descriptor was built.  Between two
calls the host may make containers, and change any but those that were there at the start. -/
inductive History (built : Compiled) (start : Heap) : Compiled → Heap → Prop where
  | built : History built start built start
  | host {compiled : Compiled} {heap after : Heap} (earlier : History built start compiled heap)
      (kept : ∀ location < start.containers.size, after.get? location = heap.get? location) :
      History built start compiled after
  | call {compiled : Compiled} {heap : Heap} (earlier : History built start compiled heap)
      (arguments : List Value) :
      History built start (compiled.after arguments heap) (compiled.call arguments heap).2

namespace History

variable {start heap : Heap}

theorem compiled_eq (history : History built start compiled heap)
    (isReadonly : built.globals.readonly = true) : compiled = built := by
  induction history with
  | built => rfl
  | host _ _ ih => exact ih
  | call _ arguments ih =>
      subst ih
      exact after_eq isReadonly arguments _

/-- Without property writes all containers are as they were at the start. -/
theorem get?_eq (history : History built start compiled heap)
    (isReadonly : built.globals.readonly = true) (unwritten : targetsOfBody built.statements = [])
    {location : Location} (old : location < start.containers.size) :
    heap.get? location = start.get? location := by
  induction history with
  | built => rfl
  | host _ kept ih => rw [kept location old, ih]
  | @call _ heap earlier arguments ih =>
      have found := ih.trans (Array.getElem?_eq_getElem old)
      rw [earlier.compiled_eq isReadonly,
        get?_call unwritten arguments heap (Heap.lt_size_of_get? found), ih]

end History

/-! ## Calls in parallel -/

theorem exists_program {source : String} {options : Options}
    (compiles : (compile source options).errors = []) :
    ∃ program, (compile source options).program = .ok program := by
  simp only [errors, compile] at compiles ⊢
  generalize parseSource (normalize source) = parsed at compiles ⊢
  rcases parsed with ⟨statements, _ | ⟨error, errors⟩⟩
  · exact ⟨statements, rfl⟩
  · cases compiles

theorem same_bindArguments {R : Renaming} (parameters : List String)
    {arguments arguments' : List Value} (same : List.Forall₂ (Value.Same R) arguments arguments') :
    List.Forall₂ (EntrySame R) (bindArguments parameters arguments)
      (bindArguments parameters arguments') := by
  have values : List.Forall₂ (Value.Same R)
      (arguments ++ List.replicate parameters.length .undefined)
      (arguments' ++ List.replicate parameters.length .undefined) :=
    List.rel_append same (same_replicate _)
  unfold bindArguments
  generalize arguments ++ List.replicate parameters.length .undefined = given,
    arguments' ++ List.replicate parameters.length .undefined = given' at values ⊢
  induction parameters generalizing given given' with
  | nil => exact .nil
  | cons parameter parameters ih =>
      cases values with
      | nil => exact .nil
      | cons head tail => exact .cons ⟨rfl, head⟩ (ih _ _ tail)

/-- Two descriptors with one program, called with globals and arguments that are the same. -/
theorem call_parallel {R : Renaming} {left right : Compiled} {program : List Stmt}
    (leftProgram : left.program = .ok program) (rightProgram : right.program = .ok program)
    (parameters : left.parameters = right.parameters)
    (globals : left.globals.Same R right.globals) {arguments arguments' : List Value}
    (same : List.Forall₂ (Value.Same R) arguments arguments') {heap heap' : Heap}
    (heaps : heap.Same R heap') :
    ∃ S, R ≤ S ∧ (left.call arguments heap).2.Same S (right.call arguments' heap').2 ∧
      (left.call arguments heap).1.value.Same S (right.call arguments' heap').1.value ∧
        (left.call arguments heap).1.errors = (right.call arguments' heap').1.errors := by
  have scopes : (left.scope arguments).Same R (right.scope arguments') := by
    rw [scope, scope, parameters]
    exact .cons ⟨Record.same_ofList (same_bindArguments _ same), rfl⟩ (.cons globals .nil)
  have initial : State.Same R ⟨heap, left.scope arguments, #[]⟩
      ⟨heap', right.scope arguments', #[]⟩ :=
    ⟨heaps, scopes, rfl⟩
  rcases evaluate_same initial program with ⟨S, le, states, values⟩
  simp only [call, leftProgram, rightProgram]
  exact ⟨S, le, states.heap, values, congrArg Array.toList states.errors⟩

/-- What is given to two calls with globals and arguments that are the same. -/
theorem same_roots {R : Renaming} {left right : Compiled}
    (globals : left.globals.Same R right.globals) {arguments arguments' : List Value}
    (same : List.Forall₂ (Value.Same R) arguments arguments') :
    List.Forall₂ (Value.Same R) (left.roots arguments) (right.roots arguments') :=
  List.rel_append (List.rel_map (fun _ _ entry => entry.2) globals.bindings) same

end Compiled

/-- Whatever calls there were before, a descriptor that compiles gives the same value up to the
identity of containers, and the same errors, as on the first call after it was built with the same
globals: if it writes no property, or if neither the globals nor the arguments of the call have
containers.  The same are globals and arguments that stand for each other under `R`, where those
containers that were there at the start count as they were then. -/
theorem call_independent_of_history {source : String} {options options' : Options}
    {compiled : Compiled} {start heap fresh : Heap} {R : Renaming}
    {arguments arguments' : List Value} (compiles : (compile source options).errors = [])
    (history : (compile source options).History start compiled heap)
    (unshared : targetsOfBody (compile source options).statements = [] ∨
      ∀ value ∈ (compile source options).roots arguments, ∀ location, value ≠ .container location)
    (parameters : options'.parameters = options.parameters)
    (heaps : (start.restore heap).Same R fresh)
    (globals : List.Forall₂ (EntrySame R) options.globals options'.globals)
    (same : List.Forall₂ (Value.Same R) arguments arguments') :
    (compiled.call arguments heap).1.errors =
        ((compile source options').call arguments' fresh).1.errors ∧
      ∃ S, (compiled.call arguments heap).2.Same S
          ((compile source options').call arguments' fresh).2 ∧
        (compiled.call arguments heap).1.value.Same S
          ((compile source options').call arguments' fresh).1.value ∧
        List.Forall₂ (Value.Same S) ((compile source options).roots arguments)
          ((compile source options').roots arguments') := by
  have later := history.compiled_eq rfl
  subst later
  rcases Compiled.exists_program compiles with ⟨program, isProgram⟩
  have isProgram' : (compile source options').program = .ok program := isProgram
  have frames : (compile source options).globals.Same R (compile source options').globals :=
    ⟨Record.same_ofList globals, rfl⟩
  rcases unshared with unwritten | scalars
  -- No call has changed what was there at the start, so the heap needs no restoring.
  · have kept : start.restore heap = heap :=
      Heap.restore_eq fun _ old => history.get?_eq rfl unwritten old
    rw [kept] at heaps
    rcases Compiled.call_parallel isProgram isProgram' parameters.symm frames same heaps with
      ⟨S, le, after, values, errors⟩
    have roots := Compiled.same_roots frames same
    exact ⟨errors, S, after, values, roots.imp fun _ _ values => values.mono le⟩
  -- Scalars are the same up to the empty renaming, under which any two heaps are.
  · rcases List.forall_mem_append.mp scalars with ⟨scalarGlobals, scalarArguments⟩
    have globals' : (compile source options).globals.Same .empty
        (compile source options').globals := by
      constructor
      · have scalarEntries := List.forall_mem_map.mp scalarGlobals
        exact ((List.forall₂_and_left _ _).mpr ⟨scalarEntries, frames.bindings⟩).imp
          fun _ _ entries => ⟨entries.2.1, entries.2.2.of_scalar entries.1⟩
      · rfl
    have same' : List.Forall₂ (Value.Same .empty) arguments arguments' :=
      ((List.forall₂_and_left _ _).mpr ⟨scalarArguments, same⟩).imp fun _ _ values =>
        values.2.of_scalar values.1
    rcases Compiled.call_parallel isProgram isProgram' parameters.symm globals' same'
      (Heap.same_empty heap fresh) with ⟨S, le, after, values, errors⟩
    have roots := Compiled.same_roots globals' same'
    exact ⟨errors, S, after, values, roots.imp fun _ _ values => values.mono le⟩

/-- The global object and the result of an earlier call are put into an array.  The descriptor that
has just been built is given them at other locations, the one in place of the other. -/
theorem call_independent_of_history_swapped :
    let built : Location → Compiled := fun global =>
      compile "[g, a]" { parameters := ["a"], globals := [("g", .container global)] }
    let object : Container := .object ⟨[("x", .bool true)]⟩
    let heap := ((built 0).call [.null] ⟨#[object]⟩).2
    let fresh : Heap := ⟨#[.array [.container 1, .null], object]⟩
    let later := ((built 0).after [.null] ⟨#[object]⟩).call [.container 1] heap
    let first := (built 1).call [.container 0] fresh
    later.1.errors = first.1.errors ∧ ∃ S, later.2.Same S first.2 ∧
      later.1.value.Same S first.1.value ∧
        List.Forall₂ (Value.Same S) ((built 0).roots [.container 1])
          ((built 1).roots [.container 0]) := by
  intro built object heap fresh later first
  let swap : Renaming := fun location location' =>
    location = 0 ∧ location' = 1 ∨ location = 1 ∧ location' = 0
  have isHeap : Heap.restore ⟨#[object]⟩ heap = ⟨#[object, .array [.container 0, .null]]⟩ := by
    decide +kernel
  have zero : swap 0 1 := .inl ⟨rfl, rfl⟩
  have one : swap 1 0 := .inr ⟨rfl, rfl⟩
  have objects : object.Same swap object := .object (.cons ⟨rfl, .bool true⟩ .nil)
  have heaps : (Heap.restore ⟨#[object]⟩ heap).Same swap fresh := by
    rw [isHeap]
    constructor
    · rintro _ _ (⟨rfl, rfl⟩ | ⟨rfl, rfl⟩)
      · exact ⟨_, _, rfl, rfl, objects⟩
      · exact ⟨_, _, rfl, rfl, .array (.cons (.container zero) (.cons .null .nil))⟩
    · constructor
      · rintro _ _ _ (⟨rfl, rfl⟩ | ⟨rfl, rfl⟩) (⟨rfl, same⟩ | ⟨rfl, same⟩) <;>
          first | rfl | cases same
      · rintro _ _ _ (⟨rfl, rfl⟩ | ⟨rfl, rfl⟩) (⟨same, rfl⟩ | ⟨same, rfl⟩) <;>
          first | rfl | cases same
  exact call_independent_of_history (by decide +kernel) (.call .built [.null])
    (.inl (by decide +kernel)) rfl heaps (.cons ⟨rfl, .container zero⟩ .nil)
    (.cons (.container one) .nil)

end Descriptor
