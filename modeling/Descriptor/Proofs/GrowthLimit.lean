import Descriptor.Proofs.Number.Integer
import Descriptor.Proofs.PropertyWrite
import Descriptor.Proofs.Trace
import Mathlib.Algebra.BigOperators.Group.Finset.Piecewise
import Mathlib.Algebra.Order.BigOperators.Group.Finset

/-!
# How much arrays grow

A write may leave a gap of `growthLimit` elements behind the last one, so that the array gets one
element more than that: those of the gap and the written one.  Each write of a program is run once
at most, and what it adds to one array it adds to no other.  All writes of a run together therefore
add no more than `growthLimit + 1` elements each to the arrays that were there before,
`elements_added_le`, and a single write can add as many, `elements_added_far`.
-/

namespace Descriptor

/-! ## Counting elements -/

/-- How many elements an array has.  An object has none. -/
def Container.elementCount : Container → Nat
  | .array elements => elements.length
  | .object _ => 0

/-- How many elements the array at a location has. -/
def Heap.elementCount (heap : Heap) (location : Location) : Nat :=
  (heap.get? location).elim 0 Container.elementCount

/-- How many elements the arrays at several locations have together. -/
def Heap.elementsAt (heap : Heap) (locations : Finset Location) : Nat :=
  ∑ location ∈ locations, heap.elementCount location

/-- The locations of all containers. -/
def Heap.allLocations (heap : Heap) : Finset Location :=
  Finset.range heap.containers.size

/-- Whether the node is a property write. -/
def Node.isWrite : Node → Bool
  | .expression (.set _ _ _) => true
  | _ => false

/-- How many property writes there are in a program, at any depth. -/
def writeCount (program : List Stmt) : Nat :=
  (nodesOfBody program).countP Node.isWrite

/-! ## What one write adds -/

theorem Container.SlotWritten.elementCount_le {heap : Heap} {key : Key} {value : Value}
    {old new : Container} (written : old.SlotWritten heap key value new) :
    new.elementCount ≤ old.elementCount + (growthLimit + 1) := by
  have limit : growthLimit = 65536 := rfl
  cases written with
  | element _ near written =>
      have length := written.length
      simp only [elementCount]
      omega
  | entry _ => exact Nat.zero_le _

/-- A written slot adds elements to one array and to no other. -/
theorem Heap.SlotWritten.exists_elementCount_le {before after : Heap} {object value : Value}
    {key : Key} (slotWritten : before.SlotWritten object key value after) :
    ∃ location, ∀ other, after.elementCount other ≤
      before.elementCount other + if location = other then growthLimit + 1 else 0 := by
  rcases slotWritten with ⟨location, old, new, -, found, found', written, others⟩
  refine ⟨location, fun other => ?_⟩
  by_cases same : location = other
  · subst same
    rw [if_pos rfl, elementCount, elementCount, found, found']
    exact written.elementCount_le
  · rw [if_neg same, elementCount, elementCount, others other (Ne.symm same)]
    exact Nat.le_refl _

theorem Heap.SlotWritten.elementsAt_le {before after : Heap} {object value : Value} {key : Key}
    (slotWritten : before.SlotWritten object key value after) (locations : Finset Location) :
    after.elementsAt locations ≤ before.elementsAt locations + (growthLimit + 1) := by
  rcases slotWritten.exists_elementCount_le with ⟨location, added⟩
  calc after.elementsAt locations
      ≤ ∑ other ∈ locations,
          (before.elementCount other + if location = other then growthLimit + 1 else 0) :=
        Finset.sum_le_sum fun other _ => added other
    _ = before.elementsAt locations + if location ∈ locations then growthLimit + 1 else 0 := by
        rw [Finset.sum_add_distrib, Finset.sum_ite_eq, elementsAt]
    _ ≤ before.elementsAt locations + (growthLimit + 1) := by
        split <;> omega

/-- A write that is done adds elements to one array, and one that is refused adds none. -/
theorem Run.elementsAt_setProperty_le (token : Token) (target : Binding) (key : Key)
    (value : Value) (state : State) (locations : Finset Location) :
    (setProperty token target key value state).2.heap.elementsAt locations ≤
      state.heap.elementsAt locations + (growthLimit + 1) := by
  rcases setProperty_cases token target key value state with
    ⟨after, -, written, done⟩ | ⟨fault, current, -, failed⟩
  · rw [done]
    exact written.elementsAt_le locations
  · rw [failed]
    exact Nat.le_add_right _ _

/-! ## What a run adds -/

/-- A new container has a new location. -/
theorem Heap.elementsAt_alloc (heap : Heap) (container : Container) {locations : Finset Location}
    (old : locations ⊆ heap.allLocations) :
    (heap.alloc container).2.elementsAt locations = heap.elementsAt locations := by
  apply Finset.sum_congr rfl
  intro location member
  have isOld : location < heap.containers.size := Finset.mem_range.mp (old member)
  rw [elementCount, elementCount, get?_alloc_of_lt heap container isOld]

/-- The arrays that were there before have got elements from the writes among the visits only, and
from each of them no more than the limit allows. -/
structure ElementsFromWrites (visits : List Visit) (before after : State) : Prop where
  kept : before.heap.allLocations ⊆ after.heap.allLocations
  added : ∀ locations ⊆ before.heap.allLocations,
    after.heap.elementsAt locations ≤ before.heap.elementsAt locations +
      (growthLimit + 1) * visits.countP (·.occurrence.1.isWrite)

namespace ElementsFromWrites

theorem of_heap_eq {before after : State} (visits : List Visit)
    (same : after.heap = before.heap) : ElementsFromWrites visits before after where
  kept := by rw [same]
  added locations _ := by
    rw [same]
    exact Nat.le_add_right _ _

theorem of_alloc {state after : State} {container : Container} (visits : List Visit)
    (isNew : after.heap = (state.heap.alloc container).2) :
    ElementsFromWrites visits state after where
  kept := by
    rw [isNew, Heap.allLocations, Heap.allLocations, Finset.range_subset_range, Heap.alloc,
      Array.size_push]
    exact Nat.le_succ _
  added locations old := by
    rw [isNew, Heap.elementsAt_alloc state.heap container old]
    exact Nat.le_add_right _ _

theorem append {visits visits' : List Visit} {first second third : State}
    (before : ElementsFromWrites visits first second)
    (behind : ElementsFromWrites visits' second third) :
    ElementsFromWrites (visits ++ visits') first third where
  kept := before.kept.trans behind.kept
  added locations old := by
    have earlier := before.added locations old
    have later := behind.added locations (old.trans before.kept)
    rw [List.countP_append, Nat.mul_add]
    omega

end ElementsFromWrites

theorem accounts_elementsFromWrites : Accounts ElementsFromWrites where
  nil state := .of_heap_eq [] rfl
  append := ElementsFromWrites.append
  rescope _ _ fromWrites := ⟨fromWrites.kept, fromWrites.added⟩
  idle node position state := .of_heap_eq _ rfl
  read name position state := .of_heap_eq _ (Run.heap_read name state)
  assign target _ value position state := .of_heap_eq _ (Run.heap_assign target value state)
  array node elements position state := .of_alloc _ rfl
  object node entries position state := .of_alloc _ rfl
  property _ accessor holder key position state :=
    .of_heap_eq _ (Run.heap_property accessor.token holder key state)
  setProperty object accessor expression target key value position state := by
    constructor
    · exact Finset.range_subset_range.mpr
        (Run.keeps_sizeKept_setProperty accessor.token target key value state)
    · intro locations _
      exact Run.elementsAt_setProperty_le accessor.token target key value state locations

/-- A program evaluates each of its property writes once at most. -/
theorem countP_isWrite_visits_le (program : List Stmt) (state : State) :
    ((trace program).visits state).countP (·.occurrence.1.isWrite) ≤ writeCount program := by
  have once := (accounts_elementsFromWrites.evaluate program state).1.map Prod.fst
  rw [List.map_map, List.zipIdx_map_fst] at once
  have counted := once.countP_le (p := Node.isWrite)
  rwa [List.countP_map] at counted

/-- A program adds no more than `growthLimit + 1` elements for each of its property writes to the
arrays that there were before, since a single write adds no more than these to an array. -/
theorem elements_added_le (program : List Stmt) (state : State) :
    (evaluate program state).2.heap.elementsAt state.heap.allLocations ≤
        state.heap.elementsAt state.heap.allLocations +
          (growthLimit + 1) * writeCount program ∧
      ∀ token target key value location,
        (Run.setProperty token target key value state).2.heap.elementCount location ≤
          state.heap.elementCount location + (growthLimit + 1) := by
  constructor
  · have writes := countP_isWrite_visits_le program state
    have added := (accounts_elementsFromWrites.evaluate program state).2.added _
      (Finset.Subset.refl _)
    have atMost := Nat.mul_le_mul_left (growthLimit + 1) writes
    omega
  · intro token target key value location
    have added := Run.elementsAt_setProperty_le token target key value state {location}
    rwa [Heap.elementsAt, Heap.elementsAt, Finset.sum_singleton, Finset.sum_singleton] at added

/-! ## The limit is reached -/

/-- An array without elements, which the variable `a` refers to. -/
def emptyArray : State :=
  ⟨⟨#[.array []]⟩, [.ofList false [("a", .container 0)]], #[]⟩

/-- The program that consists of the single write `a[index] = null`. -/
def writeNull (index : Float) : List Stmt :=
  [.expression (.set (.variable ⟨.identifier, "a", 1⟩)
    (.element ⟨.sign .leftBracket, "[", 1⟩ (.literal (.number index))) (.literal .null))]

/-- The write places `null` at the position, if this is within the limit. -/
theorem heap_evaluate_writeNull {index : Float} {position : Nat}
    (isPosition : Binary64.toInt? index = some (position : Int)) (near : position ≤ growthLimit) :
    (evaluate (writeNull index) emptyArray).2.heap = ⟨#[.array (placeAt [] position .null)]⟩ := by
  have limit : growthLimit = 65536 := rfl
  have addressed : Key.position? emptyArray.heap (.indexed (.number index)) = some position :=
    Key.position?_eq_some_iff.mpr ⟨_, rfl, isPosition, by omega⟩
  have found : emptyArray.heap.get? 0 = some (.array []) := rfl
  have inside : ¬([] : List Value).length + growthLimit < position := by
    rw [List.length_nil]
    omega
  have written : emptyArray.heap.setProperty (.container 0) (.indexed (.number index)) .null =
      .ok ⟨#[.array (placeAt [] position .null)]⟩ := by
    rw [Heap.setProperty, found]
    simp only [Container.setProperty, addressed, if_neg inside]
    rfl
  have ran : evaluate (writeNull index) emptyArray =
      Run.inNewFrame (Run.setProperty ⟨.sign .leftBracket, "[", 1⟩ ⟨.container 0, false⟩
        (.indexed (.number index)) .null) emptyArray := rfl
  rw [ran, Run.inNewFrame, Run.setProperty, if_neg Bool.false_ne_true, written]

/-- If there is but one array, its elements are all. -/
theorem elementsAt_single (elements : List Value) :
    (⟨#[.array elements]⟩ : Heap).elementsAt {0} = elements.length := by
  rw [Heap.elementsAt, Finset.sum_singleton]
  rfl

/-- A single write can add one element more than `growthLimit`. -/
theorem elements_added_far :
    emptyArray.heap.elementsAt emptyArray.heap.allLocations +
        growthLimit * writeCount (writeNull (Binary64.ofInt 65536)) <
      (evaluate (writeNull (Binary64.ofInt 65536)) emptyArray).2.heap.elementsAt
        emptyArray.heap.allLocations := by
  have limit : growthLimit = 65536 := rfl
  have isPosition : Binary64.toInt? (Binary64.ofInt 65536) = some ((65536 : Nat) : Int) :=
    Binary64.toInt?_ofInt (by decide)
  have length := (elementWritten_placeAt [] 65536 .null).length
  have one (index : Float) : writeCount (writeNull index) = 1 := rfl
  have heap : emptyArray.heap = ⟨#[.array []]⟩ := rfl
  have first : emptyArray.heap.allLocations = {0} := rfl
  rw [heap_evaluate_writeNull isPosition limit.ge, one, first, heap, elementsAt_single,
    elementsAt_single, length, limit, List.length_nil]
  decide

end Descriptor
