import Descriptor.Heap
import Descriptor.Number.Numeral

/-!
# Conversions of values

To a truth value, to text and to a number.  The text of an array joins the texts of its elements,
and an array met inside itself has no text.  Every other container has the same text.
-/

namespace Descriptor

namespace Heap

/-- The text of a value inside the containers that are `opened`. -/
def textWithin (heap : Heap) (opened : List Location) (value : Value) : String :=
  match value with
  | .null => "null"
  | .undefined => "undefined"
  | .bool true => "true"
  | .bool false => "false"
  | .number x => Numeral.write x
  | .string text => text
  | .container location =>
      match _found : heap.get? location with
      | none => ""
      | some (.object _) => "[object Object]"
      | some (.array elements) =>
          if _again : location ∈ opened then ""
          else
            ",".intercalate <| elements.map fun element =>
              match element with
              | .null | .undefined => ""
              | element => heap.textWithin (location :: opened) element
termination_by heap.closed opened
decreasing_by exact closed_cons_lt _found _again

/-- The text of a value.  An array in which it lies is not written out again, and neither `null`
nor `undefined` has a text as an element. -/
def text (heap : Heap) (value : Value) : String :=
  heap.textWithin [] value

end Heap

namespace Value

/-- False are `null`, `undefined`, `false`, zero, the number that is none, and the empty string.
Every container is true. -/
def toBool : Value → Bool
  | .null => false
  | .undefined => false
  | .bool value => value
  | .number x => x != Binary64.ofNat 0 && !x.isNaN
  | .string text => !text.isEmpty
  | .container _ => true

/-- The number zero or one of a truth value. -/
def numberOfBool (value : Bool) : Float :=
  Binary64.ofNat value.toNat

/-- The number that a value counts as.  A container counts as its text does. -/
def toNumber (heap : Heap) (value : Value) : Float :=
  match value with
  | .null => Binary64.ofNat 0
  | .undefined => Binary64.nan
  | .bool value => numberOfBool value
  | .number x => x
  | .string text => Numeral.read text
  | .container _ => Numeral.read (heap.text value)

end Value

end Descriptor
