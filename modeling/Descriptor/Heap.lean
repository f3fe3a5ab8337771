import Descriptor.Record

/-!
# Values and the heap

A value is a scalar or refers to a container.  Containers are arrays and objects.  They lie in the
heap, where any number of values may refer to the same one, and a container may hold itself.
-/

namespace Descriptor

/-- Where a container lies in the heap.  It is the identity of the container. -/
abbrev Location := Nat

/-- A value. -/
inductive Value where
  | null
  | undefined
  | bool (value : Bool)
  | number (value : Float)
  | string (text : String)
  | container (location : Location)
  deriving DecidableEq

instance : Inhabited Value := ⟨.undefined⟩

/-- What a container holds. -/
inductive Container where
  | array (elements : List Value)
  | object (properties : Record Value)
  deriving DecidableEq

/-- The values that a container holds. -/
def Container.values : Container → List Value
  | .array elements => elements
  | .object properties => properties.entries.map Prod.snd

/-- All containers. -/
structure Heap where
  containers : Array Container
  deriving DecidableEq

namespace Heap

/-- The heap without containers. -/
def empty : Heap := ⟨#[]⟩

/-- The container at a location. -/
def get? (heap : Heap) (location : Location) : Option Container :=
  heap.containers[location]?

/-- The heap with a new container, which is returned as a value. -/
def alloc (heap : Heap) (container : Container) : Value × Heap :=
  (.container heap.containers.size, ⟨heap.containers.push container⟩)

/-- The heap with another content of the container at a location. -/
def set (heap : Heap) (location : Location) (container : Container) : Heap :=
  ⟨heap.containers.setIfInBounds location container⟩

/-- The locations of all containers. -/
def locations (heap : Heap) : List Location :=
  List.range heap.containers.size

theorem mem_locations_of_get? {heap : Heap} {location : Location} {container : Container}
    (found : heap.get? location = some container) : location ∈ heap.locations := by
  obtain ⟨inBounds, -⟩ := Array.getElem?_eq_some_iff.mp found
  exact List.mem_range.mpr inBounds

end Heap

/-! ## Walks that never open a container inside itself -/

/-- How many of `all` are not among `seen`. -/
def unseen {α : Type} [DecidableEq α] (all seen : List α) : Nat :=
  all.countP fun a => decide (a ∉ seen)

/-- Every newly seen one makes the rest smaller. -/
theorem unseen_cons_lt {α : Type} [DecidableEq α] {all seen : List α} {a : α}
    (member : a ∈ all) (fresh : a ∉ seen) : unseen all (a :: seen) < unseen all seen := by
  unfold unseen
  induction all with
  | nil => contradiction
  | cons b rest ih =>
      have fewer : ∀ rest : List α,
          rest.countP (fun c => decide (c ∉ a :: seen)) ≤
            rest.countP fun c => decide (c ∉ seen) := fun rest =>
        List.countP_mono_left fun c _ new => by simp_all
      rcases List.mem_cons.mp member with rfl | inRest
      · have := fewer rest
        simp only [List.countP_cons, List.mem_cons, true_or, not_true_eq_false, decide_false,
          fresh, not_false_eq_true, decide_true]
        exact Nat.lt_succ_of_le (by simpa using this)
      · have inRest := ih inRest
        have atHead : (if decide (b ∉ a :: seen) = true then 1 else 0) ≤
            if decide (b ∉ seen) = true then 1 else 0 := by
          by_cases seenBefore : b ∈ seen
          · simp [seenBefore]
          · by_cases same : b = a
            · simp [same]
            · simp [seenBefore, same]
        simp only [List.countP_cons]
        omega

namespace Heap

/-- How many containers are not open yet. -/
def closed (heap : Heap) (opened : List Location) : Nat :=
  unseen heap.locations opened

theorem closed_cons_lt {heap : Heap} {opened : List Location} {location : Location}
    {container : Container} (found : heap.get? location = some container)
    (fresh : location ∉ opened) : heap.closed (location :: opened) < heap.closed opened :=
  unseen_cons_lt (mem_locations_of_get? found) fresh

end Heap

end Descriptor
