import Descriptor.Value.Conversion

/-!
# Values as descriptor literals

A value is rendered as it would be written in a descriptor.  The text of a string stands between
quotes as it is, and a container met inside itself is left out: `[...]` or `%{...}`.
-/

namespace Descriptor.Heap

/-- The rendering of a value inside the containers that are `opened`. -/
def renderWithin (heap : Heap) (opened : List Location) (value : Value) : String :=
  match value with
  | .string text => "\"" ++ text ++ "\""
  | .container location =>
      match _found : heap.get? location with
      | none => "[...]"
      | some (.array elements) =>
          if _again : location ∈ opened then "[...]"
          else
            let items := elements.map (heap.renderWithin (location :: opened))
            "[" ++ ", ".intercalate items ++ "]"
      | some (.object properties) =>
          if _again : location ∈ opened then "%\x7b...\x7d"
          else
            let items := properties.entries.map fun (name, value) =>
              name ++ ": " ++ heap.renderWithin (location :: opened) value
            "%\x7b" ++ ", ".intercalate items ++ "\x7d"
  | scalar => heap.text scalar
termination_by heap.closed opened
decreasing_by
  · exact closed_cons_lt _found _again
  · exact closed_cons_lt _found _again

/-- The rendering of a value. -/
def render (heap : Heap) (value : Value) : String :=
  heap.renderWithin [] value

end Descriptor.Heap
