import Descriptor.Value.Conversion

/-!
# Equality of values

Three relations.  The strict and the loose one are operators of the language, and for both a
container equals only itself.  Structural equality compares what containers hold: two values are
equal if walking both in parallel meets no difference.
-/

namespace Descriptor

namespace Value

/-- `===`: the same form and the same value, containers by identity. -/
def strictEquals : Value → Value → Bool
  | .null, .null => true
  | .undefined, .undefined => true
  | .bool left, .bool right => left == right
  | .number left, .number right => left == right
  | .string left, .string right => left == right
  | .container left, .container right => left == right
  | _, _ => false

/-- Whether a value is loosely equal to a number: as a number or a string. -/
def looseEqualsNumber (x : Float) : Value → Bool
  | .number y => x == y
  | .string text => x == Numeral.read text
  | _ => false

/-- `==`: `null` and `undefined` equal only each other, a truth value beside anything else counts
as its number, and a string beside a number counts as the number it reads as. -/
def looseEquals : Value → Value → Bool
  | .null, .null => true
  | .null, .undefined => true
  | .undefined, .null => true
  | .undefined, .undefined => true
  | .bool left, .bool right => left == right
  | .bool left, right => looseEqualsNumber (numberOfBool left) right
  | left, .bool right => looseEqualsNumber (numberOfBool right) left
  | .number left, right => looseEqualsNumber left right
  | left, .number right => looseEqualsNumber right left
  | .string left, .string right => left == right
  | .container left, .container right => left == right
  | _, _ => false

end Value

namespace Heap

/-- All pairs of locations. -/
def locationPairs (heap : Heap) : List (Location × Location) :=
  heap.locations.flatMap fun left => heap.locations.map (left, ·)

/-- How many pairs of containers are not being compared yet. -/
def uncompared (heap : Heap) (compared : List (Location × Location)) : Nat :=
  unseen heap.locationPairs compared

theorem uncompared_cons_lt {heap : Heap} {compared : List (Location × Location)}
    {left right : Location} {leftContainer rightContainer : Container}
    (leftFound : heap.get? left = some leftContainer)
    (rightFound : heap.get? right = some rightContainer) (fresh : (left, right) ∉ compared) :
    heap.uncompared ((left, right) :: compared) < heap.uncompared compared := by
  refine unseen_cons_lt (List.mem_flatMap.mpr ⟨left, mem_locations_of_get? leftFound, ?_⟩) fresh
  exact List.mem_map.mpr ⟨right, mem_locations_of_get? rightFound, rfl⟩

/-- Structural equality inside the pairs of containers that are being `compared`.  Such a pair is
taken as equal when it is met again, and so is a container beside itself. -/
def equalWithin (heap : Heap) (compared : List (Location × Location)) (left right : Value) :
    Bool :=
  match left, right with
  | .container left, .container right =>
      if left == right then true
      else if _again : (left, right) ∈ compared then true
      else
        match _left : heap.get? left, _right : heap.get? right with
        | some (.array lefts), some (.array rights) =>
            lefts.length == rights.length && (lefts.zip rights).all fun (left', right') =>
              heap.equalWithin ((left, right) :: compared) left' right'
        | some (.object lefts), some (.object rights) =>
            lefts.size == rights.size &&
              (lefts.entries.zip rights.entries).all fun (left', right') =>
                left'.1 == right'.1 &&
                  heap.equalWithin ((left, right) :: compared) left'.2 right'.2
        | _, _ => false
  | left, right => left.strictEquals right
termination_by heap.uncompared compared
decreasing_by
  · exact uncompared_cons_lt _left _right _again
  · exact uncompared_cons_lt _left _right _again

/-- Structural equality. -/
def equal (heap : Heap) (left right : Value) : Bool :=
  heap.equalWithin [] left right

end Heap

end Descriptor
