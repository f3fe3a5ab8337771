import Descriptor.Proofs.Run
import Mathlib.Data.List.Forall2

/-!
# Frames through a run

A frame keeps the names it binds through every run, and a readonly frame keeps its values as well:
declarations stay in the frames that a program opens for itself, and an assignment changes the
value of a variable that is there already.
-/

namespace Descriptor

/-- Giving another value to a name that is there leaves the names as they are. -/
theorem Record.names_insert_of_get?_eq_some {α : Type} {record : Record α} {name : String}
    {old : α} (found : record.get? name = some old) (value : α) :
    (record.insert name value).names = record.names := by
  simp only [Record.get?, Record.insert, Record.names] at found ⊢
  generalize record.entries = entries at found ⊢
  induction entries with
  | nil => simp [Record.find?] at found
  | cons entry rest ih =>
      simp only [Record.find?] at found
      simp only [Record.put]
      split
      · rfl
      · rename_i different
        rw [if_neg different] at found
        simp [ih found]

namespace Frame

/-- What a run may do to a frame: it binds the names it bound before, and if it is readonly, to
the values it bound them to. -/
structure Kept (before after : Frame) : Prop where
  readonly : after.readonly = before.readonly
  names : after.bindings.names = before.bindings.names
  bindings : before.readonly = true → after.bindings = before.bindings

theorem Kept.refl (frame : Frame) : Kept frame frame :=
  ⟨rfl, rfl, fun _ => rfl⟩

theorem Kept.trans {first second third : Frame} (left : Kept first second)
    (right : Kept second third) : Kept first third where
  readonly := right.readonly.trans left.readonly
  names := right.names.trans left.names
  bindings isReadonly :=
    (right.bindings (left.readonly.trans isReadonly)).trans (left.bindings isReadonly)

/-- A mutable frame is kept when one of its variables gets another value. -/
theorem kept_define {frame : Frame} {name : String} {old : Value}
    (found : frame.bindings.get? name = some old) (isMutable : frame.readonly = false)
    (value : Value) : Kept frame (frame.define name value) where
  readonly := rfl
  names := Record.names_insert_of_get?_eq_some found value
  bindings isReadonly := by
    rw [isMutable] at isReadonly
    contradiction

end Frame

namespace Scope

/-- Every frame of a scope is kept. -/
abbrev Kept (before after : Scope) : Prop :=
  List.Forall₂ Frame.Kept before after

theorem Kept.refl (scope : Scope) : Kept scope scope :=
  List.forall₂_same.mpr fun frame _ => Frame.Kept.refl frame

theorem Kept.trans {first second third : Scope} (left : Kept first second)
    (right : Kept second third) : Kept first third := by
  induction left generalizing third with
  | nil => exact right
  | cons head _ ih =>
      cases right with
      | cons head' tail' => exact .cons (head.trans head') (ih tail')

/-- An assignment that is done keeps every frame. -/
theorem kept_of_assign_eq_done {name : String} {value : Value} {before after : Scope}
    (done : before.assign name value = .done after) : Kept before after := by
  induction before generalizing after with
  | nil => simp [assign] at done
  | cons frame outer ih =>
      simp only [assign] at done
      cases found : frame.bindings.get? name with
      | some current =>
          simp only [found] at done
          split at done
          · contradiction
          · rename_i isMutable
            cases done
            exact .cons (Frame.kept_define found (by simpa using isMutable) value)
              (Kept.refl outer)
      | none =>
          simp only [found] at done
          cases assigned : assign name value outer with
          | done outer' =>
              simp only [assigned, Assignment.done.injEq] at done
              subst after
              exact .cons (Frame.Kept.refl frame) (ih assigned)
          | refused current => simp [assigned] at done
          | unbound => simp [assigned] at done

theorem Kept.tail {before after : Scope} (kept : Kept before after) :
    Kept before.tail after.tail := by
  cases kept with
  | nil => exact .nil
  | cons _ tail => exact tail

end Scope

namespace Run

/-- The frames before a run and after it. -/
def FramesKept (before after : State) : Prop :=
  Scope.Kept before.scope after.scope

/-- The frames around the innermost one before a run and after it. -/
def OuterFramesKept (before after : State) : Prop :=
  Scope.Kept before.scope.tail after.scope.tail

theorem keeps_framesKept_of_scope_eq {α : Type} {run : Run α}
    (same : ∀ state, (run state).2.scope = state.scope) : Keeps FramesKept run := by
  intro state
  unfold FramesKept
  rw [same]
  exact Scope.Kept.refl state.scope

theorem keeps_framesKept_assign (name : Token) (value : Value) :
    Keeps FramesKept (assign name value) := by
  intro state
  unfold assign
  split
  · rename_i scope done
    exact Scope.kept_of_assign_eq_done done
  · exact Scope.Kept.refl state.scope
  · exact Scope.Kept.refl state.scope

theorem steady_framesKept : Steady FramesKept where
  refl state := Scope.Kept.refl state.scope
  trans := Scope.Kept.trans
  read name := keeps_framesKept_of_scope_eq (scope_read name)
  assign := keeps_framesKept_assign
  alloc _ := keeps_framesKept_of_scope_eq fun _ => rfl
  property token object key := keeps_framesKept_of_scope_eq (scope_property token object key)

/-- Property writes change containers and no variable. -/
theorem writes_framesKept : Writes FramesKept fun _ => True := by
  intro object accessor value _ objectKept keyKept valueKept purpose
  simp only [Expr.run]
  apply steady_framesKept.keeps_bind objectKept
  intro binding
  apply steady_framesKept.keeps_bind keyKept
  intro key
  apply steady_framesKept.keeps_bind valueKept
  intro written
  refine steady_framesKept.keeps_bind ?_ fun _ => steady_framesKept.keeps_pure _
  exact keeps_framesKept_of_scope_eq (scope_setProperty _ binding key written.value)

/-- A declaration changes the innermost frame only, and that one is dropped with its body. -/
theorem framed_framesKept : Framed FramesKept OuterFramesKept fun _ => True where
  trans := Scope.Kept.trans
  of_outside := Scope.Kept.tail
  define name value _ state := by
    unfold OuterFramesKept define
    cases state.scope with
    | nil => exact .nil
    | cons frame outer => exact Scope.Kept.refl outer
  frame _ keeps state := keeps { state with scope := .ofList false [] :: state.scope }

end Run

/-- Whatever a program declares and assigns, every frame of the scope it is evaluated in binds the
names it bound before, and every readonly frame binds them to the same values. -/
theorem evaluate_keeps_frames (program : List Stmt) (state : State) :
    List.Forall₂ Frame.Kept state.scope (evaluate program state).2.scope :=
  keeps_evaluate Run.steady_framesKept Run.writes_framesKept Run.framed_framesKept program
    (fun _ _ => trivial) (fun _ _ => trivial) state

end Descriptor
