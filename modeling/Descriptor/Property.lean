import Descriptor.Fault
import Descriptor.Value.Conversion

/-!
# Properties of containers

Elements of an array are found by their positions, and `length` by its name.  Properties of an
object are found by name, an index standing for the name that is its text.  Reading what is not
there gives `undefined`.  Writing behind the last element makes the array longer, but not by more
than `growthLimit` at once.
-/

namespace Descriptor

/-- How a property is asked for: by name, or by the value of an index. -/
inductive Key where
  | named (name : String)
  | indexed (value : Value)
  deriving DecidableEq

namespace Key

/-- The greatest array position. -/
def lastPosition : Nat := Nat.pow 2 32 - 2

/-- The name of an object property. -/
def text (heap : Heap) : Key → String
  | .named name => name
  | .indexed value => heap.text value

/-- The array position that an index counts as: a natural number within range. -/
def position? (heap : Heap) : Key → Option Nat
  | .named _ => none
  | .indexed value =>
      match Binary64.toInt? (value.toNumber heap) with
      | some n => if 0 ≤ n && n ≤ lastPosition then some n.toNat else none
      | none => none

end Key

/-- How far behind its end an array may be written to. -/
def growthLimit : Nat := Nat.pow 2 16

/-- The elements with `value` at `position`.  Elements before it that are missing become
`undefined`. -/
def placeAt (elements : List Value) (position : Nat) (value : Value) : List Value :=
  if position < elements.length then elements.set position value
  else elements ++ List.replicate (position - elements.length) .undefined ++ [value]

namespace Container

/-- The property of a container. -/
def property (heap : Heap) (key : Key) : Container → Value
  | .array elements =>
      if key = .named "length" then .number (Binary64.ofNat elements.length)
      else ((key.position? heap).bind (elements[·]?)).getD .undefined
  | .object properties => (properties.get? (key.text heap)).getD .undefined

/-- The container with `value` as a property. -/
def setProperty (heap : Heap) (key : Key) (value : Value) :
    Container → Except RuntimeFault Container
  | .array elements =>
      match key.position? heap with
      | none => .error .invalidIndex
      | some position =>
          if elements.length + growthLimit < position then .error (.indexTooFar position)
          else .ok (.array (placeAt elements position value))
  | .object properties => .ok (.object (properties.insert (key.text heap) value))

end Container

namespace Heap

/-- The property of a value, if the value is a container. -/
def property? (heap : Heap) (object : Value) (key : Key) : Option Value :=
  match object with
  | .container location => (heap.get? location).map (·.property heap key)
  | _ => none

/-- The heap with `value` as a property of `object`. -/
def setProperty (heap : Heap) (object : Value) (key : Key) (value : Value) :
    Except RuntimeFault Heap :=
  match object with
  | .container location =>
      match heap.get? location with
      | some container => (container.setProperty heap key value).map (heap.set location)
      | none => .error .propertyDoesNotExist
  | _ => .error .propertyDoesNotExist

end Heap

end Descriptor
