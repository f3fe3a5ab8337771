import Descriptor.Compiled
import Descriptor.Proofs.Comparison
import Descriptor.Proofs.Scoping
import Mathlib

/-!
# Scopes are seen through lookups only

Two scopes agree if every name means the same in both.  They may have different frames: empty
ones, frames with variables that are hidden, or the same variables in other frames.  A program
cannot tell such scopes apart, and they agree again behind it: `evaluate_agree`.

An assignment may find its variable in different frames of the two scopes.  The frames that the
program has opened itself are the same in both, so the invariant of the two runs is `Scope.Alike`:
some frames in common, and scopes that agree behind them.

Evaluation looks at nothing but the lexemes of tokens, and passes the tokens on to the errors.  The
second run may therefore be one of the program with other tokens of the same lexemes,
`evaluate_alike`.
-/

namespace Descriptor

/-! ## Scopes that agree -/

namespace Scope

/-- Every name means the same in both scopes: it is bound in neither, or to the same value with
the same mark. -/
def Agree (left right : Scope) : Prop :=
  ∀ name, left.lookup? name = right.lookup? name

variable {scope left right : Scope} {name : String} {current : Value}

theorem Agree.refl (scope : Scope) : scope.Agree scope :=
  fun _ => rfl

theorem Agree.symm (agree : left.Agree right) : right.Agree left :=
  fun name => (agree name).symm

theorem Agree.trans {middle : Scope} (agree : left.Agree middle) (agree' : middle.Agree right) :
    left.Agree right :=
  fun name => (agree name).trans (agree' name)

theorem Agree.cons (agree : left.Agree right) (frame : Frame) :
    Agree (frame :: left) (frame :: right) := by
  intro name
  rw [lookup?, lookup?, agree name]

/-- A frame without variables makes no difference. -/
theorem agree_cons_empty (readonly : Bool) (scope : Scope) :
    Agree (⟨.empty, readonly⟩ :: scope) scope :=
  fun _ => rfl

/-- A variable that another one hides makes no difference. -/
theorem agree_cons_hidden {frame inner : Frame} {value : Value}
    (hides : inner.bindings.get? name = some value) (hidden : Value) (outer : Scope) :
    Agree (inner :: frame.define name hidden :: outer) (inner :: frame :: outer) := by
  intro other
  by_cases same : other = name
  · simp only [lookup?, same, hides]
  · simp only [lookup?, Frame.define, Record.get?_insert_of_ne _ _ same]

/-- A variable may as well lie in a frame of its own, before the frame that it was defined in. -/
theorem agree_cons_define (frame : Frame) (name : String) (value : Value) (outer : Scope) :
    Agree (.ofList frame.readonly [(name, value)] :: frame :: outer)
      (frame.define name value :: outer) := by
  intro other
  have alone : (Record.ofList [(name, value)]).get? other =
      (Record.empty.insert name value).get? other := rfl
  simp only [lookup?, Frame.ofList, Frame.define, alone]
  by_cases same : other = name
  · simp only [same, Record.get?_insert_self]
  · simp only [Record.get?_insert_of_ne _ _ same, Record.get?_empty]

/-- A readonly variable keeps its value. -/
theorem assign_of_readonly (found : scope.lookup? name = some ⟨current, true⟩) (value : Value) :
    scope.assign name value = .refused current := by
  induction scope with
  | nil => cases found
  | cons frame outer ih =>
      rw [lookup?] at found
      rw [assign]
      cases here : frame.bindings.get? name with
      | some _ =>
          simp only [here, Option.some.injEq, Binding.mk.injEq] at found
          simp only [found, if_true]
      | none =>
          simp only [here] at found
          simp only [ih found]

/-- A variable of another frame has its new value then, and all other names mean what they did. -/
theorem assign_of_mutable (found : scope.lookup? name = some ⟨current, false⟩) (value : Value) :
    ∃ after, scope.assign name value = .done after ∧
      after.lookup? name = some ⟨value, false⟩ ∧
        ∀ other, other ≠ name → after.lookup? other = scope.lookup? other := by
  induction scope with
  | nil => cases found
  | cons frame outer ih =>
      rw [lookup?] at found
      rw [assign]
      cases here : frame.bindings.get? name with
      | some _ =>
          simp only [here, Option.some.injEq, Binding.mk.injEq] at found
          refine ⟨frame.define name value :: outer, by simp [found], ?_, ?_⟩
          · simp [lookup?, Frame.define, found]
          · intro other ne
            simp only [lookup?, Frame.define, Record.get?_insert_of_ne _ _ ne]
      | none =>
          simp only [here] at found
          rcases ih found with ⟨after, done, atName, elsewhere⟩
          refine ⟨frame :: after, by simp only [done], ?_, ?_⟩
          · simpa only [lookup?, here] using atName
          · intro other ne
            simp only [lookup?, elsewhere other ne]

end Scope

/-! ## Common frames before scopes that agree -/

/-- So many frames in common, and scopes that agree behind them. -/
inductive Scope.Alike : Nat → Scope → Scope → Prop where
  | outside {left right : Scope} (agree : left.Agree right) : Alike 0 left right
  | inside {depth : Nat} {left right : Scope} (frame : Frame) (behind : Alike depth left right) :
      Alike (depth + 1) (frame :: left) (frame :: right)

/-- Assignments of one outcome. -/
inductive Assignment.Alike (depth : Nat) : Assignment → Assignment → Prop where
  | done {left right : Scope} (scopes : left.Alike depth right) :
      Alike depth (.done left) (.done right)
  | refused (current : Value) : Alike depth (.refused current) (.refused current)
  | unbound : Alike depth .unbound .unbound

namespace Scope

variable {depth : Nat} {left right : Scope}

theorem Alike.agree (alike : left.Alike depth right) : left.Agree right := by
  induction alike with
  | outside agree => exact agree
  | inside frame _ ih => exact ih.cons frame

theorem Alike.isReadonly_eq (alike : left.Alike (depth + 1) right) :
    left.isReadonly = right.isReadonly := by
  cases alike with
  | inside frame _ => rfl

theorem Alike.define (alike : left.Alike (depth + 1) right) (name : String) (value : Value) :
    (left.define name value).Alike (depth + 1) (right.define name value) := by
  cases alike with
  | inside frame behind => exact .inside _ behind

theorem Alike.tail (alike : left.Alike (depth + 1) right) : Alike depth left.tail right.tail := by
  cases alike with
  | inside _ behind => exact behind

/-- The two variables may lie in different frames, but a lookup tells how the assignments end. -/
theorem Agree.assign (agree : left.Agree right) (name : String) (value : Value) :
    (left.assign name value).Alike 0 (right.assign name value) := by
  cases found : left.lookup? name with
  | none =>
      have found' := (agree name).symm.trans found
      rw [assign_eq_unbound_iff.mpr (lookup?_eq_none_iff.mp found),
        assign_eq_unbound_iff.mpr (lookup?_eq_none_iff.mp found')]
      exact .unbound
  | some binding =>
      rcases binding with ⟨current, _ | _⟩
      · rcases assign_of_mutable found value with ⟨after, done, atName, elsewhere⟩
        rcases assign_of_mutable ((agree name).symm.trans found) value with
          ⟨after', done', atName', elsewhere'⟩
        rw [done, done']
        refine .done (.outside fun other => ?_)
        by_cases same : other = name
        · rw [same, atName, atName']
        · rw [elsewhere other same, elsewhere' other same, agree other]
      · rw [assign_of_readonly found,
          assign_of_readonly ((agree name).symm.trans found)]
        exact .refused current

theorem Alike.assign (alike : left.Alike depth right) (name : String) (value : Value) :
    (left.assign name value).Alike depth (right.assign name value) := by
  induction alike with
  | outside agree => exact agree.assign name value
  | @inside depth left right frame behind ih =>
      simp only [Scope.assign]
      split
      · split
        · exact .refused _
        · exact .done (.inside _ behind)
      · generalize Scope.assign name value left = assigned,
          Scope.assign name value right = assigned' at ih ⊢
        cases ih with
        | done scopes => exact .done (.inside frame scopes)
        | refused current => exact .refused current
        | unbound => exact .unbound

end Scope

/-! ## States -/

/-- The error with another token. -/
def RuntimeError.mapToken (map : Token → Token) (error : RuntimeError) : RuntimeError :=
  { error with token := map error.token }

/-- The same containers, scopes that are alike, and the same errors up to their tokens. -/
structure State.Alike (map : Token → Token) (depth : Nat) (left right : State) : Prop where
  heap : left.heap = right.heap
  scope : left.scope.Alike depth right.scope
  errors : left.errors.map (RuntimeError.mapToken map) = right.errors

theorem State.Alike.report {map : Token → Token} {depth : Nat} {left right : State}
    (alike : left.Alike map depth right) (token : Token) (fault : RuntimeFault) :
    (left.report token fault).Alike map depth (right.report (map token) fault) where
  heap := alike.heap
  scope := alike.scope
  errors := by simp [State.report, RuntimeError.mapToken, ← alike.errors]

theorem RuntimeError.mapToken_id : RuntimeError.mapToken id = id :=
  rfl

theorem State.Alike.errors_eq {depth : Nat} {left right : State}
    (alike : left.Alike id depth right) : left.errors = right.errors := by
  rw [← alike.errors, RuntimeError.mapToken_id, Array.map_id]

/-! ## Runs from states that are alike -/

namespace Run

variable {map : Token → Token} {depth : Nat} {w : Unit}

/-- What is missing counts as a variable of the innermost frame, so that has to be in common. -/
theorem parallel_read_of_alike {name : Token} (lexeme : (map name).lexeme = name.lexeme) :
    Parallel (fun _ => State.Alike map (depth + 1)) w (fun _ => Binding.Related Eq) (read name)
      (read (map name)) := by
  apply parallel_of_stays
  intro state state' alike
  simp only [read, lexeme, alike.scope.agree name.lexeme, alike.scope.isReadonly_eq]
  split
  · exact ⟨alike, rfl, rfl⟩
  · exact ⟨alike.report _ _, rfl, rfl⟩

theorem parallel_assign_of_alike {name : Token} (lexeme : (map name).lexeme = name.lexeme)
    (value : Value) :
    Parallel (fun _ => State.Alike map depth) w (fun _ => Eq) (assign name value)
      (assign (map name) value) := by
  apply parallel_of_stays
  intro state state' alike
  simp only [assign, lexeme]
  have assigned := alike.scope.assign name.lexeme value
  generalize state.scope.assign name.lexeme value = outcome,
    state'.scope.assign name.lexeme value = outcome' at assigned ⊢
  cases assigned with
  | done scopes => exact ⟨⟨alike.heap, scopes, alike.errors⟩, rfl⟩
  | refused current => exact ⟨alike.report _ _, rfl⟩
  | unbound => exact ⟨alike.report _ _, rfl⟩

theorem parallel_define_of_alike (name : String) (value : Value) :
    Parallel (fun _ => State.Alike map (depth + 1)) w (fun _ _ _ => True) (define name value)
      (define name value) := by
  apply parallel_of_stays
  intro state state' alike
  exact ⟨⟨alike.heap, alike.scope.define name value, alike.errors⟩, trivial⟩

theorem parallel_alloc_of_alike (container : Container) :
    Parallel (fun _ => State.Alike map depth) w (fun _ => Eq) (alloc container)
      (alloc container) := by
  apply parallel_of_stays
  intro state state' alike
  simp only [alloc, alike.heap]
  exact ⟨⟨rfl, alike.scope, alike.errors⟩, trivial⟩

theorem parallel_property_of_alike (token : Token) (object : Value) (key : Key) :
    Parallel (fun _ => State.Alike map depth) w (fun _ => Eq) (property token object key)
      (property (map token) object key) := by
  apply parallel_of_stays
  intro state state' alike
  simp only [property, alike.heap]
  split
  · exact ⟨alike, rfl⟩
  · exact ⟨alike.report _ _, rfl⟩

theorem parallel_setProperty_of_alike (token : Token) (object : Binding) (key : Key)
    (value : Value) :
    Parallel (fun _ => State.Alike map depth) w (fun _ => Eq) (setProperty token object key value)
      (setProperty (map token) object key value) := by
  apply parallel_of_stays
  intro state state' alike
  simp only [setProperty, alike.heap]
  split
  · exact ⟨alike.report _ _, rfl⟩
  · split
    · exact ⟨⟨rfl, alike.scope, alike.errors⟩, rfl⟩
    · exact ⟨alike.report _ _, rfl⟩

end Run

theorem Binding.Related.eq {left right : Binding} (related : left.Related Eq right) :
    left = right := by
  rcases related with ⟨value, readonly⟩
  cases left
  cases right
  congr

theorem Key.Related.eq {left right : Key} (related : left.Related Eq right) : left = right := by
  cases related with
  | named name => rfl
  | indexed indices => rw [indices]

/-- States that are alike stay alike in two runs, which find equal values.  What is related does not
grow, so there is one world. -/
theorem State.comparison_alike {map : Token → Token}
    (lexemes : ∀ token, (map token).lexeme = token.lexeme) :
    Run.Comparison map (fun depth (_ : Unit) => State.Alike map depth) (fun _ => Eq) where
  lexeme := lexemes
  mono _ _ _ equal := equal
  literal _ _ := rfl
  toBool equal := congrArg Value.toBool equal
  unary operator alike := by
    rintro right _ rfl
    rw [alike.heap]
  binary operator alike := by
    rintro left _ right _ rfl rfl
    rw [alike.heap]
  array depth {w elements elements'} equal := by
    rw [List.forall₂_eq_eq_eq] at equal
    rw [equal]
    exact Run.parallel_alloc_of_alike _
  object depth {w entries entries'} related := by
    have equal : List.Forall₂ Eq entries entries' :=
      related.imp fun _ _ entry => Prod.ext entry.1 entry.2
    rw [List.forall₂_eq_eq_eq] at equal
    rw [equal]
    exact Run.parallel_alloc_of_alike _
  read depth w name := Run.parallel_read_of_alike (lexemes name)
  assign depth w name := by
    rintro value _ rfl
    exact Run.parallel_assign_of_alike (lexemes name) value
  define depth w name := by
    rintro value _ rfl
    exact Run.parallel_define_of_alike name value
  property depth w token := by
    rintro object _ key _ rfl keys
    obtain rfl := keys.eq
    exact Run.parallel_property_of_alike token object key
  setProperty depth w token := by
    rintro object _ key _ value _ objects keys rfl
    obtain rfl := objects.eq
    obtain rfl := keys.eq
    exact Run.parallel_setProperty_of_alike token object key value
  enter outside := ⟨outside.heap, .inside _ outside.scope, outside.errors⟩
  leave inside := ⟨inside.heap, inside.scope.tail, inside.errors⟩

/-- A program runs the same in scopes that are alike, also with other tokens of the same
lexemes. -/
theorem evaluate_alike {map : Token → Token}
    (lexemes : ∀ token, (map token).lexeme = token.lexeme) (program : List Stmt) {depth : Nat}
    {state state' : State} (alike : state.Alike map depth state') :
    (evaluate program state).1 = (evaluate (mapBody map program) state').1 ∧
      (evaluate program state).2.Alike map depth (evaluate (mapBody map program) state').2 := by
  rcases parallel_evaluate (State.comparison_alike lexemes) program depth () state state' alike with
    ⟨_, _, states, values⟩
  exact ⟨values, states⟩

/-! ## Programs -/

section Programs

variable {left right : Scope}

/-- With the same tokens the same errors are left. -/
theorem evaluate_of_agree (agree : left.Agree right) (program : List Stmt) (heap : Heap)
    (errors : Array RuntimeError) :
    (evaluate program ⟨heap, left, errors⟩).1 = (evaluate program ⟨heap, right, errors⟩).1 ∧
      (evaluate program ⟨heap, left, errors⟩).2.Alike id 0
        (evaluate program ⟨heap, right, errors⟩).2 := by
  have lexemes : ∀ token : Token, (id token).lexeme = token.lexeme := fun _ => rfl
  have states : State.Alike id 0 ⟨heap, left, errors⟩ ⟨heap, right, errors⟩ :=
    ⟨rfl, .outside agree, by rw [RuntimeError.mapToken_id, Array.map_id]⟩
  have alike := evaluate_alike lexemes program states
  rwa [mapBody_id] at alike

/-- A program looks at its scope through lookups only.  In scopes that agree it has the same value
and the same errors and does the same to the heap, and behind it the scopes agree again. -/
theorem evaluate_agree (program : List Stmt) (heap : Heap) (errors : Array RuntimeError)
    (agree : left.Agree right) :
    let ran := evaluate program ⟨heap, left, errors⟩
    let ran' := evaluate program ⟨heap, right, errors⟩
    ran.1 = ran'.1 ∧ ran.2.errors = ran'.2.errors ∧ ran.2.heap = ran'.2.heap ∧
      ran.2.scope.Agree ran'.2.scope := by
  intro ran ran'
  rcases evaluate_of_agree agree program heap errors with ⟨values, alike⟩
  exact ⟨values, alike.errors_eq, alike.heap, alike.scope.agree⟩

end Programs

/-- An argument on the left is a global on the right, between an empty frame and a variable that it
hides.  The program assigns to it in vain, declares another variable of its name, and misses `c`. -/
theorem evaluate_agree_argument :
    let program := (parseSource "b = a; a = 1; let a = [b]; if (a) { b = a[0] + c }").1
    let globals : Frame := .ofList true [("d", .null)]
    let locals : Frame := .ofList false [("b", .undefined)]
    let left : Scope := [.ofList true [("a", .bool true)], globals, locals]
    let right : Scope := [.ofList true [], globals.define "a" (.bool true),
      locals.define "a" .null]
    let ran := evaluate program ⟨⟨#[]⟩, left, #[]⟩
    let ran' := evaluate program ⟨⟨#[]⟩, right, #[]⟩
    left.Agree right ∧ ran.1 = ran'.1 ∧ ran.2.errors = ran'.2.errors ∧ ran.2.heap = ran'.2.heap ∧
      ran.2.scope.Agree ran'.2.scope := by
  intro program globals locals left right ran ran'
  have moved : left.Agree [globals.define "a" (.bool true), locals] :=
    Scope.agree_cons_define globals "a" (.bool true) [locals]
  have hidden : Scope.Agree [globals.define "a" (.bool true), locals.define "a" .null]
      [globals.define "a" (.bool true), locals] :=
    Scope.agree_cons_hidden (Record.get?_insert_self _ _ _) .null []
  have agree : left.Agree right :=
    moved.trans (hidden.symm.trans (Scope.agree_cons_empty true _).symm)
  exact ⟨agree, evaluate_agree program ⟨#[]⟩ #[] agree⟩

end Descriptor
