import Descriptor.Heap

/-!
# Scopes

A scope is a chain of frames, the innermost first.  A name belongs to the innermost frame that
binds it.  A frame is readonly as a whole: its variables cannot be assigned to, and what they hold
cannot be changed through them.
-/

namespace Descriptor

/-- The variables of one frame. -/
structure Frame where
  bindings : Record Value
  readonly : Bool

/-- Frames, the innermost first. -/
abbrev Scope := List Frame

/-- A value and whether it was reached through a readonly frame. -/
structure Binding where
  value : Value
  readonly : Bool

/-- What came of an assignment. -/
inductive Assignment where
  /-- The variable has its new value. -/
  | done (scope : Scope)
  /-- The variable is readonly and keeps its value. -/
  | refused (current : Value)
  /-- No frame binds the name. -/
  | unbound

namespace Frame

/-- A frame with the given variables.  The last of several for one name counts. -/
def ofList (readonly : Bool) (bindings : List (String × Value)) : Frame :=
  ⟨.ofList bindings, readonly⟩

/-- The frame with one more variable, or another value of the variable of that name. -/
def define (frame : Frame) (name : String) (value : Value) : Frame :=
  { frame with bindings := frame.bindings.insert name value }

end Frame

namespace Scope

/-- The variable of the given name, in the innermost frame that binds it. -/
def lookup? (name : String) : Scope → Option Binding
  | [] => none
  | frame :: outer =>
      match frame.bindings.get? name with
      | some value => some ⟨value, frame.readonly⟩
      | none => lookup? name outer

/-- Whether the innermost frame is readonly. -/
def isReadonly (scope : Scope) : Bool :=
  scope.head?.any Frame.readonly

/-- Defines a variable in the innermost frame. -/
def define (name : String) (value : Value) : Scope → Scope
  | [] => []
  | frame :: outer => frame.define name value :: outer

/-- Assigns to the variable of the given name, in the innermost frame that binds it. -/
def assign (name : String) (value : Value) : Scope → Assignment
  | [] => .unbound
  | frame :: outer =>
      match frame.bindings.get? name with
      | some current =>
          if frame.readonly then .refused current
          else .done (frame.define name value :: outer)
      | none =>
          match assign name value outer with
          | .done outer => .done (frame :: outer)
          | other => other

end Scope

end Descriptor
