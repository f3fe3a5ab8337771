import Descriptor.Proofs.Equality
import Descriptor.Proofs.Run

/-!
# Literals that build values

Evaluating an array or object literal makes a new container.  If every part of the literal builds
a value equal to the one at its place in some container of the heap, then the new container is
equal to that one.  The containers that were there stay as they are, so that what was found equal
stays equal while more containers are made.
-/

namespace Descriptor

/-! ## Records from distinct names -/

namespace Record

variable {α : Type}

theorem put_of_not_mem {name : String} {entries : List (String × α)}
    (absent : name ∉ entries.map Prod.fst) (value : α) :
    put name value entries = entries ++ [(name, value)] := by
  induction entries with
  | nil => rfl
  | cons entry entries ih =>
      rw [List.map_cons, List.mem_cons, not_or] at absent
      rw [put, if_neg (by simpa using Ne.symm absent.1), ih absent.2, List.cons_append]

/-- Distinct new names come behind those that are there, in their order. -/
theorem entries_insertAll {record : Record α} {entries : List (String × α)}
    (distinct : (record.names ++ entries.map Prod.fst).Nodup) :
    (record.insertAll entries).entries = record.entries ++ entries := by
  induction entries generalizing record with
  | nil => exact (List.append_nil _).symm
  | cons entry entries ih =>
      have absent : entry.1 ∉ record.names := fun member =>
        (List.nodup_append.mp distinct).2.2 _ member entry.1 List.mem_cons_self rfl
      have inserted : (record.insert entry.1 entry.2).entries = record.entries ++ [entry] :=
        put_of_not_mem absent entry.2
      have others : ((record.insert entry.1 entry.2).names ++ entries.map Prod.fst).Nodup := by
        simpa [names, inserted] using distinct
      rw [insertAll, List.foldl_cons]
      refine (ih others).trans ?_
      rw [inserted, List.append_assoc, List.singleton_append]

/-- A record made of as many values as distinct names has these names and these values. -/
theorem ofList_zip {names : List String} {values : List α} (distinct : names.Nodup)
    (count : names.length = values.length) :
    (ofList (names.zip values)).names = names ∧
      (ofList (names.zip values)).entries.map Prod.snd = values := by
  have fst := List.map_fst_zip count.le
  have entries : (ofList (names.zip values)).entries = names.zip values :=
    @entries_insertAll _ empty _ (by rwa [fst])
  rw [Record.names, entries]
  exact ⟨fst, List.map_snd_zip count.ge⟩

end Record

/-! ## More containers -/

namespace Heap

/-- Every container of the one heap is in the other as it is. -/
def LiesIn (before after : Heap) : Prop :=
  ∀ location container, before.get? location = some container →
    after.get? location = some container

theorem LiesIn.refl (heap : Heap) : heap.LiesIn heap :=
  fun _ _ found => found

theorem LiesIn.trans {first second third : Heap} (left : first.LiesIn second)
    (right : second.LiesIn third) : first.LiesIn third :=
  fun location container found => right location container (left location container found)

theorem liesIn_alloc (heap : Heap) (container : Container) :
    heap.LiesIn (heap.alloc container).2 := by
  intro location old found
  rw [get?_alloc_of_lt heap container (lt_size_of_get? found), found]

section LiesIn

variable {before after : Heap} (lies : before.LiesIn after)
include lies

theorem outline?_of_liesIn {location : Location} {outline : Outline}
    (found : before.outline? location = some outline) :
    after.outline? location = some outline := by
  rcases Option.map_eq_some_iff.mp found with ⟨container, found, isOutline⟩
  rw [outline?, lies location container found, ← isOutline]
  rfl

theorem at?_of_liesIn {location : Location} {outline : Outline}
    (found : before.outline? location = some outline) (position : Nat) :
    after.at? location position = before.at? location position := by
  rcases Option.map_eq_some_iff.mp found with ⟨container, found, -⟩
  rw [at?, at?, found, lies location container found]

/-- Values differ no more when there are more containers. -/
theorem differ_of_liesIn {left right : Value} (differ : after.Differ left right) :
    before.Differ left right := by
  by_cases containers : ∃ location location',
      left = .container location ∧ right = .container location'
  · rcases containers with ⟨left, right, rfl, rfl⟩
    refine ⟨differ.1, fun alike => differ.2 ?_⟩
    rcases alike with ⟨outline, leftFound, rightFound⟩
    exact ⟨outline, outline?_of_liesIn lies leftFound, outline?_of_liesIn lies rightFound⟩
  · rw [differ_of_scalar containers] at differ ⊢
    exact differ

/-- What is equal stays equal when there are more containers. -/
theorem equal_of_liesIn {left right : Value} (equal : before.equal left right = true) :
    after.equal left right = true := by
  rw [equal_iff]
  intro path last last' leads
  induction leads with
  | here =>
      intro differ
      exact equal_iff.mp equal [] _ _ .here (differ_of_liesIn lies differ)
  | follow distinct leftHolds rightHolds _ ih =>
      -- Both containers were there before, since they do not differ.
      have alike := equal_iff.mp equal [] _ _ .here
      rcases Classical.not_not.mp fun noOutline => alike ⟨distinct, noOutline⟩ with
        ⟨outline, leftFound, rightFound⟩
      rw [at?_of_liesIn lies leftFound] at leftHolds
      rw [at?_of_liesIn lies rightFound] at rightHolds
      exact ih (equal_of_at? equal distinct leftHolds rightHolds)

end LiesIn

/-- Containers are equal if they have one outline and equal values. -/
theorem equal_container {heap : Heap} {left right : Location}
    {leftContainer rightContainer : Container}
    (leftFound : heap.get? left = some leftContainer)
    (rightFound : heap.get? right = some rightContainer)
    (outlines : leftContainer.outline = rightContainer.outline)
    (values : List.Forall₂ (fun left right => heap.equal left right = true)
      leftContainer.values rightContainer.values) :
    heap.equal (.container left) (.container right) = true := by
  rw [equal_iff]
  intro path last last' leads
  cases leads with
  | here =>
      intro differ
      refine differ.2 ⟨leftContainer.outline, ?_, ?_⟩
      · rw [outline?, leftFound, Option.map_some]
      · rw [outline?, rightFound, outlines, Option.map_some]
  | follow distinct leftHolds rightHolds rest =>
      rw [at?, leftFound, Option.bind_some] at leftHolds
      rw [at?, rightFound, Option.bind_some] at rightHolds
      have equal := (forall_mem_zip_iff fun left right => heap.equal left right = true).mp
        (fun pair member => List.forall₂_zip values member) _ _ _ leftHolds rightHolds
      exact equal_iff.mp equal _ _ _ rest

end Heap

/-! ## Expressions that build values -/

/-- The state after a run is the one before with more containers. -/
structure State.Grown (before after : State) : Prop where
  heap : before.heap.LiesIn after.heap
  scope : after.scope = before.scope
  errors : after.errors = before.errors

theorem State.Grown.refl (state : State) : State.Grown state state :=
  ⟨.refl state.heap, rfl, rfl⟩

theorem State.Grown.trans {first second third : State} (left : State.Grown first second)
    (right : State.Grown second third) : State.Grown first third :=
  ⟨left.heap.trans right.heap, right.scope.trans left.scope, right.errors.trans left.errors⟩

/-- Wherever the containers of a heap are, the expression makes containers only and gives a value
equal to the given one. -/
def Expr.Builds (heap : Heap) (value : Value) (expression : Expr) : Prop :=
  ∀ state, heap.LiesIn state.heap →
    State.Grown state (expression.run .value state).2 ∧
      (expression.run .value state).2.heap.equal value (expression.run .value state).1.value = true

section Builds

variable {heap : Heap}

theorem builds_literal {value : Value} {literal : Literal}
    (same : value.strictEquals literal.toValue = true) :
    (Expr.literal literal).Builds heap value := by
  intro state _
  have scalar : ¬∃ location location',
      value = .container location ∧ literal.toValue = .container location' := by
    rintro ⟨location, location', -, isContainer⟩
    cases literal <;> contradiction
  exact ⟨.refl state, (Heap.equalWithin_of_scalar scalar).trans same⟩

/-- A minus sign in front of a number builds the negated number. -/
theorem builds_negate {x y : Float} (same : (x == -y) = true) (token : Token) :
    (Expr.unary .negate token (.literal (.number y))).Builds heap (.number x) := by
  intro state _
  exact ⟨.refl state, (Heap.equalWithin_of_scalar (by simp)).trans same⟩

/-- Elements are built one after another, and what is built stays equal. -/
theorem builds_elements {values : List Value} {expressions : List Expr}
    (each : List.Forall₂ (Expr.Builds heap) values expressions) :
    ∀ state, heap.LiesIn state.heap →
      State.Grown state (runElements expressions state).2 ∧
        List.Forall₂
          (fun value built => (runElements expressions state).2.heap.equal value built = true)
          values (runElements expressions state).1 := by
  induction each with
  | nil => exact fun state _ => ⟨.refl state, .nil⟩
  | @cons value expression values expressions first _ ih =>
      intro state lies
      rcases first state lies with ⟨grown, equal⟩
      rcases ih _ (lies.trans grown.heap) with ⟨grownMore, others⟩
      simp only [runElements, Run.run_bind, Run.run_pure]
      exact ⟨grown.trans grownMore, .cons (Heap.equal_of_liesIn grownMore.heap equal) others⟩

/-- A new container with the outline of another one and values equal to its values is equal to
it. -/
theorem builds_alloc {state : State} {location : Location} {container built : Container}
    (lies : heap.LiesIn state.heap) (found : heap.get? location = some container)
    (outlines : container.outline = built.outline)
    (values : List.Forall₂ (fun value built => state.heap.equal value built = true)
      container.values built.values) :
    State.Grown state (Run.alloc built state).2 ∧
      (Run.alloc built state).2.heap.equal (.container location) (Run.alloc built state).1 =
        true := by
  have more := Heap.liesIn_alloc state.heap built
  refine ⟨⟨more, rfl, rfl⟩, ?_⟩
  refine Heap.equal_container (more _ _ (lies _ _ found)) (Heap.get?_alloc_self _ _) outlines ?_
  exact values.imp fun _ _ equal => Heap.equal_of_liesIn more equal

theorem builds_array {location : Location} {elements : List Value} {expressions : List Expr}
    (found : heap.get? location = some (.array elements))
    (each : List.Forall₂ (Expr.Builds heap) elements expressions) :
    (Expr.array expressions).Builds heap (.container location) := by
  intro state lies
  rcases builds_elements each state lies with ⟨grown, values⟩
  have outlines : (Container.array elements).outline =
      (Container.array (runElements expressions state).1).outline :=
    congrArg Outline.array values.length_eq
  rcases builds_alloc (lies.trans grown.heap) found outlines values with ⟨grownMore, equal⟩
  simp only [Expr.run, Run.run_bind, Run.run_pure]
  exact ⟨grown.trans grownMore, equal⟩

/-- The properties of an object are its names beside its values. -/
theorem runProperties_eq (properties : List (Token × Expr)) (state : State) :
    runProperties properties state =
      ((properties.map (·.1.lexeme)).zip (runElements (properties.map Prod.snd) state).1,
        (runElements (properties.map Prod.snd) state).2) := by
  induction properties generalizing state with
  | nil => rfl
  | cons property properties ih =>
      simp only [runProperties, List.map_cons, runElements, Run.run_bind, Run.run_pure, ih,
        List.zip_cons_cons]

theorem builds_object {location : Location} {record : Record Value}
    {properties : List (Token × Expr)} (found : heap.get? location = some (.object record))
    (distinct : record.names.Nodup)
    (names : record.names = properties.map (·.1.lexeme))
    (each : List.Forall₂ (Expr.Builds heap) (record.entries.map Prod.snd)
      (properties.map Prod.snd)) :
    (Expr.object properties).Builds heap (.container location) := by
  intro state lies
  rcases builds_elements each state lies with ⟨grown, values⟩
  have count : record.names.length =
      (runElements (properties.map Prod.snd) state).1.length := by
    rw [← values.length_eq, Record.names, List.length_map, List.length_map]
  rcases Record.ofList_zip distinct count with ⟨isNames, isValues⟩
  have outlines : (Container.object record).outline = (Container.object (.ofList _)).outline :=
    congrArg Outline.object isNames.symm
  have equalValues : List.Forall₂ _ (Container.object record).values
    (Container.object (.ofList _)).values := isValues.symm ▸ values
  rcases builds_alloc (lies.trans grown.heap) found outlines equalValues with ⟨grownMore, equal⟩
  simp only [Expr.run, Run.run_bind, Run.run_pure, runProperties_eq, ← names]
  exact ⟨grown.trans grownMore, equal⟩

end Builds

end Descriptor
