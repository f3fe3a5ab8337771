import Descriptor.Heap
import Descriptor.Number.Binary64

/-!
# JSON documents

Values cross to the host as documents.  A document tells integers from other numbers and keeps the
members of an object in the order of their names.  What a document cannot hold becomes `null`:
`undefined`, infinite numbers and a container inside itself.
-/

namespace Descriptor

/-- A document. -/
inductive Json where
  | null
  | bool (value : Bool)
  | integer (value : Int)
  | float (value : Float)
  | string (text : String)
  | array (items : List Json)
  | object (members : List (String × Json))
  deriving Inhabited

namespace Json

/-- Members in the order of their names, with one more.  It replaces a member of its name. -/
def insertMember (name : String) (document : Json) :
    List (String × Json) → List (String × Json)
  | [] => [(name, document)]
  | (other, old) :: members =>
      if name < other then (name, document) :: (other, old) :: members
      else if name == other then (name, document) :: members
      else (other, old) :: insertMember name document members

/-- The object with the given members, put in order. -/
def ofMembers (members : List (String × Json)) : Json :=
  .object (members.foldl (fun sorted member => insertMember member.1 member.2 sorted) [])

/-- Integers of at most this magnitude are written as integers. -/
def integerLimit : Nat := Nat.pow 2 53 - 1

/-- The document of a number. -/
def ofNumber (x : Float) : Json :=
  match Binary64.form x with
  | .finite _ _ =>
      match Binary64.toInt? x with
      | some n => if n.natAbs ≤ integerLimit then .integer n else .float x
      | none => .float x
  | _ => .null

end Json

namespace Heap

/-- The document of a value inside the containers that are `opened`. -/
def jsonWithin (heap : Heap) (opened : List Location) (value : Value) : Json :=
  match value with
  | .null => .null
  | .undefined => .null
  | .bool value => .bool value
  | .number x => .ofNumber x
  | .string text => .string text
  | .container location =>
      if _again : location ∈ opened then .null
      else
        match _found : heap.get? location with
        | none => .null
        | some (.array elements) =>
            .array (elements.map (heap.jsonWithin (location :: opened)))
        | some (.object properties) =>
            .ofMembers <| properties.entries.map fun (name, value) =>
              (name, heap.jsonWithin (location :: opened) value)
termination_by heap.closed opened
decreasing_by
  · exact closed_cons_lt _found _again
  · exact closed_cons_lt _found _again

/-- The document of a value. -/
def json (heap : Heap) (value : Value) : Json :=
  heap.jsonWithin [] value

end Heap

namespace Json

mutual

/-- The value of a document, its containers new in the heap. -/
def toValue (heap : Heap) : Json → Value × Heap
  | .null => (.null, heap)
  | .bool value => (.bool value, heap)
  | .integer value => (.number (Binary64.ofInt value), heap)
  | .float value => (.number value, heap)
  | .string text => (.string text, heap)
  | .array items =>
      let built := itemValues heap items
      built.2.alloc (.array built.1)
  | .object members =>
      let built := memberValues heap members
      built.2.alloc (.object (.ofList built.1))

/-- The values of the items of an array. -/
def itemValues (heap : Heap) : List Json → List Value × Heap
  | [] => ([], heap)
  | item :: items =>
      let built := toValue heap item
      let others := itemValues built.2 items
      (built.1 :: others.1, others.2)

/-- The values of the members of an object, with their names. -/
def memberValues (heap : Heap) : List (String × Json) → List (String × Value) × Heap
  | [] => ([], heap)
  | (name, document) :: members =>
      let built := toValue heap document
      let others := memberValues built.2 members
      ((name, built.1) :: others.1, others.2)

end

end Json

end Descriptor
