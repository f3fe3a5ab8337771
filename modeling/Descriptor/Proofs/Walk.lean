import Descriptor.Proofs.Documents
import Descriptor.Proofs.Renaming.Value
import Descriptor.Proofs.Rendering.Readable
import Mathlib.Logic.Relation

/-!
# Walks over the heap

The text, the rendering and the document of a value are all made by a walk over the containers that
it leads to.  A walk keeps a stack of the containers that it is inside, and does not enter one of
them again.

Such walks end, whatever the heap: no more calls are open at a time than there are containers, and
one more.  Where no container reaches itself the stack makes no difference, however often a
container is met: the walk gives what the plain recursion without a stack gives.  Both are proved
for all walks, and the three conversions are walks: `conversions_return`.
-/

namespace Descriptor

/-! ## Containers that hold containers -/

namespace Heap

/-- The one container holds a reference to the other. -/
def Holds (heap : Heap) (outer inner : Location) : Prop :=
  ∃ container, heap.get? outer = some container ∧ .container inner ∈ container.values

/-- No container that the value leads to reaches itself. -/
def Acyclic (heap : Heap) (value : Value) : Prop :=
  ∀ start, value = .container start → ∀ location,
    Relation.ReflTransGen heap.Holds start location →
      ¬ Relation.TransGen heap.Holds location location

variable {heap : Heap} {location : Location} {container : Container}

/-- The values of a container lead to nothing else than the container. -/
theorem Acyclic.of_mem (acyclic : heap.Acyclic (.container location))
    (found : heap.get? location = some container) {value : Value}
    (member : value ∈ container.values) : heap.Acyclic value := by
  rintro inner rfl last leads
  exact acyclic location rfl last (leads.head ⟨container, found, member⟩)

theorem closed_nil (heap : Heap) : heap.closed [] = heap.containers.size := by
  simp [closed, unseen, locations]

end Heap

/-! ## Walks -/

/-- What a walk makes of values. -/
structure Walk (α : Type) where
  /-- Of a value that is no reference. -/
  scalar : Value → α
  /-- Of a reference to no container. -/
  missing : α
  /-- Of a container that is not entered, whatever it holds. -/
  whole? : Container → Option α
  /-- Of a container that the walk is inside already. -/
  again : Container → α
  /-- Of a container, by what became of its values. -/
  combine : Container → List α → α

namespace Walk

variable {α : Type}

/-- The walk with a stack, which all calls share: a container is put on it before its values are
visited, and taken off behind them.  A call fails if no more calls may be opened. -/
def visit (walk : Walk α) (heap : Heap) : Nat → Value → StateT (List Location) Option α
  | 0, _ => failure
  | calls + 1, .container location =>
      match heap.get? location with
      | none => return walk.missing
      | some container =>
          match walk.whole? container with
          | some result => return result
          | none => do
              if location ∈ (← get) then return walk.again container
              else
                modify (location :: ·)
                let results ← container.values.mapM (walk.visit heap calls)
                modify List.tail
                return walk.combine container results
  | _ + 1, value => return walk.scalar value

/-- The walk without a stack.  A call fails if no more calls may be opened. -/
def plain (walk : Walk α) (heap : Heap) : Nat → Value → Option α
  | 0, _ => none
  | calls + 1, .container location =>
      match heap.get? location with
      | none => some walk.missing
      | some container =>
          match walk.whole? container with
          | some result => some result
          | none => do
              let results ← container.values.mapM (walk.plain heap calls)
              return walk.combine container results
  | _ + 1, value => some (walk.scalar value)

/-- A function of the opened containers and a value that says what the walk makes of it there. -/
structure Gives (walk : Walk α) (heap : Heap) (result : List Location → Value → α) : Prop where
  scalar : ∀ {opened value}, (∀ location, value ≠ .container location) →
    result opened value = walk.scalar value
  missing : ∀ {opened location}, heap.get? location = none →
    result opened (.container location) = walk.missing
  whole : ∀ {opened location container made}, heap.get? location = some container →
    walk.whole? container = some made → result opened (.container location) = made
  again : ∀ {opened location container}, heap.get? location = some container →
    walk.whole? container = none → location ∈ opened →
      result opened (.container location) = walk.again container
  enter : ∀ {opened location container}, heap.get? location = some container →
    walk.whole? container = none → location ∉ opened →
      result opened (.container location) =
        walk.combine container (container.values.map (result (location :: opened)))

theorem mapM_eq_some {β γ : Type} {f : β → Option γ} {g : β → γ} {values : List β}
    (each : ∀ value ∈ values, f value = some (g value)) :
    values.mapM f = some (values.map g) := by
  induction values with
  | nil => rfl
  | cons value values ih =>
      rw [List.forall_mem_cons] at each
      simp [each.1, ih each.2]

/-- Calls that leave the stack as it was can be made one after another. -/
theorem run_mapM_eq_some {β γ : Type} {f : β → StateT (List Location) Option γ} {g : β → γ}
    {opened : List Location} {values : List β}
    (each : ∀ value ∈ values, (f value).run opened = some (g value, opened)) :
    (values.mapM f).run opened = some (values.map g, opened) := by
  induction values with
  | nil => rfl
  | cons value values ih =>
      rw [List.forall_mem_cons] at each
      simp [each.1, ih each.2]

variable {walk : Walk α} {heap : Heap} {result : List Location → Value → α}

/-- A walk ends before more calls are open than there are closed containers, and leaves the stack
as it was. -/
theorem run_visit (gives : walk.Gives heap result) {calls : Nat} {opened : List Location}
    {value : Value} (enough : heap.closed opened < calls) :
    (walk.visit heap calls value).run opened = some (result opened value, opened) := by
  induction calls generalizing opened value with
  | zero => contradiction
  | succ calls ih =>
      cases value with
      | container location =>
          rw [visit]
          cases found : heap.get? location with
          | none => simp [gives.missing found]
          | some container =>
              cases isWhole : walk.whole? container with
              | some made => simp [isWhole, gives.whole found isWhole]
              | none =>
                  by_cases again : location ∈ opened
                  · simp [isWhole, again, gives.again found isWhole again]
                  · have fewer := Heap.closed_cons_lt found again
                    have enough : heap.closed (location :: opened) < calls := by omega
                    have visited : ∀ value ∈ container.values,
                        (walk.visit heap calls value).run (location :: opened) =
                          some (result (location :: opened) value, location :: opened) :=
                      fun value _ => ih enough
                    simp [isWhole, again, run_mapM_eq_some visited,
                      gives.enter found isWhole again]
      | _ => simp [visit, gives.scalar]

/-- Where no container reaches itself, the walk never is inside the container that it meets. -/
theorem plain_eq_some (gives : walk.Gives heap result) {calls : Nat} {opened : List Location}
    {value : Value} (enough : heap.closed opened < calls) (acyclic : heap.Acyclic value)
    (inside : ∀ outer ∈ opened, ∀ location, value = .container location →
      Relation.TransGen heap.Holds outer location) :
    walk.plain heap calls value = some (result opened value) := by
  induction calls generalizing opened value with
  | zero => contradiction
  | succ calls ih =>
      cases value with
      | container location =>
          rw [plain]
          cases found : heap.get? location with
          | none => simp [gives.missing found]
          | some container =>
              cases isWhole : walk.whole? container with
              | some made => simp [isWhole, gives.whole found isWhole]
              | none =>
                  have fresh : location ∉ opened := fun again =>
                    acyclic location rfl location .refl (inside location again location rfl)
                  have fewer := Heap.closed_cons_lt found fresh
                  have enough : heap.closed (location :: opened) < calls := by omega
                  have visited : ∀ value ∈ container.values,
                      walk.plain heap calls value = some (result (location :: opened) value) := by
                    intro value member
                    apply ih enough (acyclic.of_mem found member)
                    rintro outer isOuter inner rfl
                    have held : heap.Holds location inner := ⟨container, found, member⟩
                    rcases List.mem_cons.mp isOuter with rfl | isOuter
                    · exact .single held
                    · exact (inside outer isOuter location rfl).tail held
                  simp [isWhole, mapM_eq_some visited, gives.enter found isWhole fresh]
      | _ => simp [plain, gives.scalar]

theorem mapM_eq_none {β γ : Type} {f : β → Option γ} {values : List β} {value : β}
    (member : value ∈ values) (fails : f value = none) : values.mapM f = none := by
  induction values with
  | nil => cases member
  | cons first values ih =>
      rcases List.mem_cons.mp member with rfl | member
      · simp [fails]
      · simp [ih member]

/-- From a container that leads to one that reaches itself, the recursion without a stack never
comes back. -/
theorem plain_eq_none (enters : ∀ container, walk.whole? container = none)
    {start last : Location} (leads : Relation.ReflTransGen heap.Holds start last)
    (cycle : Relation.TransGen heap.Holds last last) (calls : Nat) :
    walk.plain heap calls (.container start) = none := by
  induction calls generalizing start with
  | zero => rfl
  | succ calls ih =>
      have onward : ∃ next, heap.Holds start next ∧ Relation.ReflTransGen heap.Holds next last := by
        rcases leads.cases_head with rfl | onward
        · exact Relation.TransGen.head'_iff.mp cycle
        · exact onward
      rcases onward with ⟨next, ⟨container, found, member⟩, onward⟩
      simp [plain, found, enters container, mapM_eq_none member (ih onward)]

/-- A walk that enters all containers needs its stack exactly where a container reaches itself. -/
theorem exists_plain_iff (gives : walk.Gives heap result)
    (enters : ∀ container, walk.whole? container = none) {value : Value} :
    (∃ calls made, walk.plain heap calls value = some made) ↔ heap.Acyclic value := by
  constructor
  · rintro ⟨calls, made, returns⟩ start rfl last leads cycle
    rw [plain_eq_none enters leads cycle] at returns
    cases returns
  · intro acyclic
    exact ⟨_, _, plain_eq_some gives (Nat.lt_succ_self (heap.closed [])) acyclic
      fun _ member => absurd member List.not_mem_nil⟩

/-! ## The conversions as walks -/

/-- The walk that makes the text of a value.  Objects are not entered. -/
def textual : Walk String where
  scalar
    | .null => "null"
    | .undefined => "undefined"
    | .bool true => "true"
    | .bool false => "false"
    | .number x => Numeral.write x
    | .string text => text
    | .container _ => ""
  missing := ""
  whole?
    | .array _ => none
    | .object _ => some "[object Object]"
  again _ := ""
  combine container texts :=
    let written (element : Value) (text : String) : String :=
      match element with
      | .null | .undefined => ""
      | _ => text
    ",".intercalate (container.values.zipWith written texts)

/-- The walk that renders a value. -/
def rendering : Walk String where
  scalar
    | .string text => "\"" ++ text ++ "\""
    | scalar => textual.scalar scalar
  missing := "[...]"
  whole? _ := none
  again
    | .array _ => "[...]"
    | .object _ => "%\x7b...\x7d"
  combine
    | .array _, items => "[" ++ ", ".intercalate items ++ "]"
    | .object properties, items =>
        let members := properties.names.zipWith (fun name item => name ++ ": " ++ item) items
        "%\x7b" ++ ", ".intercalate members ++ "\x7d"

/-- The walk that makes the document of a value. -/
def documenting : Walk Json where
  scalar
    | .null => .null
    | .undefined => .null
    | .bool value => .bool value
    | .number x => .ofNumber x
    | .string text => .string text
    | .container _ => .null
  missing := .null
  whole? _ := none
  again _ := .null
  combine
    | .array _, items => .array items
    | .object properties, items => .ofMembers (properties.names.zip items)

theorem textual_gives (heap : Heap) : textual.Gives heap heap.textWithin where
  scalar {opened value} isScalar := by
    rw [Heap.textWithin.eq_def]
    cases value with
    | bool value => cases value <;> rfl
    | container location => exact absurd rfl (isScalar location)
    | _ => rfl
  missing absent := by
    rw [Heap.textWithin]
    split <;> simp_all [textual]
  whole {opened location container made} found isWhole := by
    cases container with
    | array elements => cases isWhole
    | object properties =>
        rw [Heap.textWithin_object found]
        exact Option.some.inj isWhole
  again {opened location container} found enters again := by
    cases container with
    | array elements => rw [Heap.textWithin_array found, if_pos again, textual]
    | object properties => cases enters
  enter {opened location container} found enters fresh := by
    cases container with
    | array elements =>
        rw [Heap.textWithin_array found, if_neg fresh]
        simp only [textual, Container.values, List.zipWith_map_right, List.zipWith_self]
        congr
        funext element
        cases element <;> rfl
    | object properties => cases enters

theorem rendering_gives (heap : Heap) : rendering.Gives heap heap.renderWithin where
  scalar {opened value} isScalar := by
    rw [Heap.renderWithin.eq_def]
    cases value with
    | container location => exact absurd rfl (isScalar location)
    | string text => rfl
    | _ => exact (textual_gives heap).scalar isScalar
  missing absent := by
    rw [Heap.renderWithin]
    split <;> simp_all [rendering]
  whole _ isWhole := by cases isWhole
  again {opened location container} found _ again := by
    rw [Heap.renderWithin]
    cases container <;> split <;> simp_all [rendering]
  enter {opened location container} found _ fresh := by
    cases container with
    | array elements =>
        rw [Heap.renderWithin_array found fresh]
        rfl
    | object properties =>
        rw [Heap.renderWithin_object found fresh]
        simp [rendering, Container.values, Record.names, List.zipWith_map, List.zipWith_self]

theorem documenting_gives (heap : Heap) : documenting.Gives heap heap.jsonWithin where
  scalar {opened value} isScalar := by
    rw [Heap.jsonWithin.eq_def]
    cases value with
    | container location => exact absurd rfl (isScalar location)
    | _ => rfl
  missing absent := by
    rw [Heap.jsonWithin]
    split
    · rfl
    · split <;> simp_all [documenting]
  whole _ isWhole := by cases isWhole
  again found _ again := by
    rw [Heap.jsonWithin, dif_pos again, documenting]
  enter {opened location container} found _ fresh := by
    cases container with
    | array elements =>
        rw [Heap.jsonWithin_array found fresh]
        rfl
    | object properties =>
        rw [Heap.jsonWithin_object found fresh]
        simp only [documenting, Container.values, Record.names, List.map_map, List.zip_map',
          Prod.map_def, Function.comp_apply, id]

end Walk

open Walk

/-- In any heap, cyclic or not, the text, the rendering and the document of a value are what calls
with a shared stack return, no more of them open at a time than there are containers, and one
more.  Where no container that the value leads to reaches itself, they are what the recursion
without a stack returns. -/
theorem conversions_return (heap : Heap) (value : Value) {calls : Nat}
    (enough : heap.containers.size < calls) :
    (textual.visit heap calls value).run [] = some (heap.text value, []) ∧
      (rendering.visit heap calls value).run [] = some (heap.render value, []) ∧
      (documenting.visit heap calls value).run [] = some (heap.json value, []) ∧
      (heap.Acyclic value →
        textual.plain heap calls value = some (heap.text value) ∧
          rendering.plain heap calls value = some (heap.render value) ∧
          documenting.plain heap calls value = some (heap.json value)) := by
  rw [← heap.closed_nil] at enough
  refine ⟨run_visit (textual_gives heap) enough, run_visit (rendering_gives heap) enough,
    run_visit (documenting_gives heap) enough, fun acyclic => ?_⟩
  have outside : ∀ outer ∈ ([] : List Location), ∀ location, value = .container location →
      Relation.TransGen heap.Holds outer location := fun _ member => nomatch member
  exact ⟨plain_eq_some (textual_gives heap) enough acyclic outside,
    plain_eq_some (rendering_gives heap) enough acyclic outside,
    plain_eq_some (documenting_gives heap) enough acyclic outside⟩

/-- An object that an array holds twice, beside an array that holds itself. -/
theorem conversions_return_shared :
    let heap : Heap :=
      ⟨#[.array [.container 1, .container 1], .object (.ofList [("a", .null)]),
        .array [.container 2]]⟩
    let value : Value := .container 0
    heap.containers.size < 4 ∧ heap.Acyclic value ∧ ¬ heap.Acyclic (.container 2) ∧
      (textual.visit heap 4 value).run [] = some (heap.text value, []) ∧
      (rendering.visit heap 4 value).run [] = some (heap.render value, []) ∧
      (documenting.visit heap 4 value).run [] = some (heap.json value, []) ∧
      textual.plain heap 4 value = some (heap.text value) ∧
      rendering.plain heap 4 value = some (heap.render value) ∧
      documenting.plain heap 4 value = some (heap.json value) := by
  intro heap value
  have enough : heap.containers.size < 4 := by decide
  have acyclic : heap.Acyclic value :=
    (exists_plain_iff (rendering_gives heap) fun _ => rfl).mp ⟨3, _, rfl⟩
  have cyclic : ¬ heap.Acyclic (.container 2) := fun acyclic =>
    acyclic 2 rfl 2 .refl (.single ⟨.array [.container 2], rfl, List.mem_singleton_self _⟩)
  rcases conversions_return heap value enough with ⟨text, rendered, document, plain⟩
  exact ⟨enough, acyclic, cyclic, text, rendered, document, plain acyclic⟩

end Descriptor
