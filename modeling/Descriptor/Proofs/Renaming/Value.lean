import Descriptor.Proofs.Comparison

/-!
# Values up to the identity of containers

A renaming says which containers of one heap stand for which of another.  Values are the same up to
a renaming if they are the same scalar or containers that stand for each other, and two heaps are if
containers that stand for each other hold the same values again.  Containers that are not renamed
are out of sight: there may be any number of them in either heap.

Every operation on values gives the same result for values that are the same, and a write leaves
heaps the same.
-/

namespace Descriptor

/-- Which containers of one heap stand for which of another. -/
abbrev Renaming := Location → Location → Prop

/-- No container stands for another one. -/
def Renaming.empty : Renaming := fun _ _ => False

variable {R S : Renaming}

/-! ## Values and records -/

/-- Values that are the same up to a renaming. -/
inductive Value.Same (R : Renaming) : Value → Value → Prop where
  | null : Same R .null .null
  | undefined : Same R .undefined .undefined
  | bool (value : Bool) : Same R (.bool value) (.bool value)
  | number (value : Float) : Same R (.number value) (.number value)
  | string (text : String) : Same R (.string text) (.string text)
  | container {left right : Location} (related : R left right) :
      Same R (.container left) (.container right)

/-- What is not a container is the same up to every renaming. -/
theorem Value.same_self {value : Value} (scalar : ∀ location, value ≠ .container location) :
    Same R value value := by
  cases value with
  | null => exact .null
  | undefined => exact .undefined
  | bool value => exact .bool value
  | number value => exact .number value
  | string text => exact .string text
  | container location => exact absurd rfl (scalar location)

theorem Value.Same.mono (le : R ≤ S) {left right : Value} (same : left.Same R right) :
    left.Same S right := by
  cases same with
  | container related => exact .container (le _ _ related)
  | _ => constructor

/-- What is not a container is the same up to every renaming, if up to any. -/
theorem Value.Same.of_scalar {left right : Value} (same : left.Same R right)
    (scalar : ∀ location, left ≠ .container location) : left.Same S right := by
  cases same with
  | container related => exact absurd rfl (scalar _)
  | _ => constructor

/-- Entries of one name with values that are the same. -/
abbrev EntrySame (R : Renaming) : String × Value → String × Value → Prop :=
  EntryRelated (Value.Same R)

/-- Records with the same names in the same order, and values that are the same. -/
def Record.Same (R : Renaming) (left right : Record Value) : Prop :=
  List.Forall₂ (EntrySame R) left.entries right.entries

theorem Record.Same.mono (le : R ≤ S) {left right : Record Value} (same : left.Same R right) :
    left.Same S right :=
  List.Forall₂.imp (fun _ _ entry => ⟨entry.1, entry.2.mono le⟩) same

theorem Record.Same.get? {left right : Record Value} (same : left.Same R right) (name : String) :
    Option.Rel (Value.Same R) (left.get? name) (right.get? name) := by
  simp only [Same, Record.get?] at same ⊢
  generalize left.entries = entries, right.entries = entries' at same ⊢
  induction same with
  | nil => exact .none
  | @cons entry entry' _ _ head _ ih =>
      simp only [find?]
      rw [head.1]
      split
      · exact .some head.2
      · exact ih

theorem Record.Same.insert {left right : Record Value} (same : left.Same R right) (name : String)
    {value value' : Value} (values : value.Same R value') :
    (left.insert name value).Same R (right.insert name value') := by
  simp only [Same, Record.insert] at same ⊢
  generalize left.entries = entries, right.entries = entries' at same ⊢
  induction same with
  | nil => exact .cons ⟨rfl, values⟩ .nil
  | @cons entry entry' _ _ head tail ih =>
      simp only [put]
      rw [head.1]
      split
      · exact .cons ⟨rfl, values⟩ tail
      · exact .cons ⟨rfl, head.2⟩ ih

theorem Record.same_ofList {left right : List (String × Value)}
    (same : List.Forall₂ (EntrySame R) left right) :
    (Record.ofList left).Same R (Record.ofList right) := by
  have inserted : ∀ {record record' : Record Value}, record.Same R record' →
      (record.insertAll left).Same R (record'.insertAll right) := by
    induction same with
    | nil => exact id
    | @cons entry entry' _ _ head _ ih =>
        intro record record' records
        simp only [insertAll, List.foldl_cons] at ih ⊢
        rw [head.1]
        exact ih (records.insert _ head.2)
  exact inserted .nil

/-! ## Containers and heaps -/

/-- Containers of one form that hold the same values. -/
inductive Container.Same (R : Renaming) : Container → Container → Prop where
  | array {lefts rights : List Value} (elements : List.Forall₂ (Value.Same R) lefts rights) :
      Same R (.array lefts) (.array rights)
  | object {lefts rights : Record Value} (properties : lefts.Same R rights) :
      Same R (.object lefts) (.object rights)

theorem Container.Same.mono (le : R ≤ S) {left right : Container} (same : left.Same R right) :
    left.Same S right := by
  cases same with
  | array elements => exact .array (elements.imp fun _ _ same => same.mono le)
  | object properties => exact .object (properties.mono le)

/-- Heaps in which containers that stand for each other hold the same values.  No container stands
for two. -/
structure Heap.Same (R : Renaming) (left right : Heap) : Prop where
  containers : ∀ {location location'}, R location location' → ∃ container container',
    left.get? location = some container ∧ right.get? location' = some container' ∧
      container.Same R container'
  unique : Relator.BiUnique R

namespace Heap

/-- All heaps are the same if no container is looked at. -/
theorem same_empty (left right : Heap) : left.Same .empty right where
  containers := False.elim
  unique := ⟨fun _ _ _ => False.elim, fun _ _ _ => False.elim⟩

variable {left right : Heap}

/-- The text of an array element. -/
def elementText (heap : Heap) (opened : List Location) : Value → String
  | .null | .undefined => ""
  | element => heap.textWithin opened element

theorem textWithin_object {heap : Heap} {location : Location} {properties : Record Value}
    (found : heap.get? location = some (.object properties)) (opened : List Location) :
    heap.textWithin opened (.container location) = "[object Object]" := by
  rw [textWithin]
  split
  · rename_i missing
    rw [missing] at found
    contradiction
  · rfl
  · rename_i isArray
    rw [isArray] at found
    cases found

theorem textWithin_array {heap : Heap} {location : Location} {elements : List Value}
    (found : heap.get? location = some (.array elements)) (opened : List Location) :
    heap.textWithin opened (.container location) =
      if location ∈ opened then ""
      else ",".intercalate (elements.map (heap.elementText (location :: opened))) := by
  rw [textWithin]
  split
  · rename_i missing
    rw [missing] at found
    contradiction
  · rename_i isObject
    rw [isObject] at found
    cases found
  · rename_i elements' isArray
    rw [isArray] at found
    cases found
    rfl

/-- Values that are the same have the same text. -/
theorem Same.textWithin_eq (same : left.Same R right) {opened opened' : List Location}
    (all : List.Forall₂ R opened opened') {value value' : Value} (values : value.Same R value') :
    left.textWithin opened value = right.textWithin opened' value' := by
  -- Each array that is opened leaves fewer to be opened.
  induction bound : left.closed opened using Nat.strongRecOn
    generalizing opened opened' value value' with
  | _ n ih =>
      subst bound
      cases values with
      | @container location location' related =>
          rcases same.containers related with ⟨container, container', found, found', held⟩
          cases held with
          | object properties => rw [textWithin_object found, textWithin_object found']
          | @array elements elements' held =>
              rw [textWithin_array found, textWithin_array found']
              have opens : location ∈ opened ↔ location' ∈ opened' :=
                List.rel_mem same.unique related all
              by_cases again : location ∈ opened
              · rw [if_pos again, if_pos (opens.mp again)]
              · rw [if_neg again, if_neg (opens.not.mp again)]
                congr 1
                have element : ∀ {value value' : Value}, value.Same R value' →
                    left.elementText (location :: opened) value =
                      right.elementText (location' :: opened') value' := by
                  intro value value' values
                  have text := ih _ (closed_cons_lt found again) (.cons related all) values rfl
                  cases values <;> first | rfl | exact text
                rw [← List.forall₂_eq_eq_eq]
                exact List.rel_map (fun _ _ related => element related) held
      | bool value => cases value <;> rw [textWithin, textWithin]
      | _ => rw [textWithin, textWithin]

theorem Same.text_eq (same : left.Same R right) {value value' : Value}
    (values : value.Same R value') : left.text value = right.text value' :=
  same.textWithin_eq .nil values

end Heap

/-! ## Operators -/

namespace Value

variable {left right : Heap}

theorem Same.toBool_eq {value value' : Value} (values : value.Same R value') :
    value.toBool = value'.toBool := by
  cases values <;> rfl

theorem Same.toNumber_eq {value value' : Value} (values : value.Same R value')
    (heaps : left.Same R right) : value.toNumber left = value'.toNumber right := by
  cases values with
  | container related => simp only [toNumber, heaps.text_eq (.container related)]
  | _ => rfl

theorem Same.strictEquals_eq {first first' second second' : Value} (firsts : first.Same R first')
    (seconds : second.Same R second') (heaps : left.Same R right) :
    first.strictEquals second = first'.strictEquals second' := by
  cases firsts with
  | container related =>
      cases seconds with
      | container related' =>
          rw [strictEquals, strictEquals, Bool.eq_iff_iff, beq_iff_eq, beq_iff_eq]
          exact Relator.rel_eq heaps.unique related related'
      | _ => rfl
  | _ => cases seconds <;> rfl

theorem Same.looseEquals_eq {first first' second second' : Value} (firsts : first.Same R first')
    (seconds : second.Same R second') (heaps : left.Same R right) :
    first.looseEquals second = first'.looseEquals second' := by
  cases firsts with
  | container related =>
      cases seconds with
      | container related' =>
          exact Same.strictEquals_eq (.container related) (.container related') heaps
      | _ => rfl
  | _ => cases seconds <;> rfl

end Value

theorem Literal.same_toValue (literal : Literal) : literal.toValue.Same R literal.toValue := by
  cases literal <;> constructor

namespace Heap.Same

variable {left right : Heap}

theorem unary (heaps : left.Same R right) (operator : UnaryOperator) {value value' : Value}
    (values : value.Same R value') :
    (operator.apply left value).Same R (operator.apply right value') := by
  have same : operator.apply left value = operator.apply right value' := by
    rcases operator with _ | _ | (_ | _)
    · simp only [UnaryOperator.apply, values.toNumber_eq heaps]
    · simp only [UnaryOperator.apply, values.toBool_eq]
    · simp only [UnaryOperator.apply, heaps.text_eq values]
    · simp only [UnaryOperator.apply, values.toBool_eq]
  rw [same]
  apply Value.same_self
  intro location
  rcases operator with _ | _ | (_ | _) <;> simp [UnaryOperator.apply]

/-- Operators give the same scalar, or one of their operands. -/
theorem binary (heaps : left.Same R right) (operator : BinaryOperator)
    {first first' second second' : Value} (firsts : first.Same R first')
    (seconds : second.Same R second') :
    (operator.apply left first second).Same R (operator.apply right first' second') := by
  cases operator with
  | and =>
      simp only [BinaryOperator.apply, firsts.toBool_eq]
      split
      · exact seconds
      · exact firsts
  | or =>
      simp only [BinaryOperator.apply, firsts.toBool_eq]
      split
      · exact firsts
      · exact seconds
  | _ =>
      simp only [BinaryOperator.apply, firsts.toNumber_eq heaps, seconds.toNumber_eq heaps,
        firsts.looseEquals_eq seconds heaps, firsts.strictEquals_eq seconds heaps]
      constructor

end Heap.Same

/-! ## Properties -/

/-- Keys of one name, or indices that are the same. -/
abbrev Key.Same (R : Renaming) : Key → Key → Prop :=
  Key.Related (Value.Same R)

namespace Key.Same

variable {left right : Heap} {key key' : Key}

theorem text_eq (keys : key.Same R key') (heaps : left.Same R right) :
    key.text left = key'.text right := by
  cases keys with
  | named name => rfl
  | indexed values => exact heaps.text_eq values

theorem position?_eq (keys : key.Same R key') (heaps : left.Same R right) :
    key.position? left = key'.position? right := by
  cases keys with
  | named name => rfl
  | indexed values => simp only [Key.position?, values.toNumber_eq heaps]

theorem eq_named_iff (keys : key.Same R key') (name : String) :
    key = .named name ↔ key' = .named name := by
  cases keys <;> simp

end Key.Same

theorem same_getD {found found' : Option Value} (same : Option.Rel (Value.Same R) found found') :
    (found.getD .undefined).Same R (found'.getD .undefined) := by
  cases same with
  | some values => exact values
  | none => exact .undefined

theorem same_getElem? {lefts rights : List Value}
    (elements : List.Forall₂ (Value.Same R) lefts rights) (position : Nat) :
    Option.Rel (Value.Same R) lefts[position]? rights[position]? := by
  induction elements generalizing position with
  | nil => exact .none
  | cons head _ ih =>
      cases position with
      | zero => exact .some head
      | succ position => exact ih position

theorem same_set {lefts rights : List Value}
    (elements : List.Forall₂ (Value.Same R) lefts rights) (position : Nat) {value value' : Value}
    (values : value.Same R value') :
    List.Forall₂ (Value.Same R) (lefts.set position value) (rights.set position value') := by
  induction elements generalizing position with
  | nil => exact .nil
  | cons head tail ih =>
      cases position with
      | zero => exact .cons values tail
      | succ position => exact .cons head (ih position)

theorem same_replicate (count : Nat) :
    List.Forall₂ (Value.Same R) (List.replicate count .undefined)
      (List.replicate count .undefined) := by
  apply List.forall₂_same.mpr
  intro value member
  rw [List.eq_of_mem_replicate member]
  exact .undefined

theorem same_placeAt {lefts rights : List Value}
    (elements : List.Forall₂ (Value.Same R) lefts rights) (position : Nat) {value value' : Value}
    (values : value.Same R value') :
    List.Forall₂ (Value.Same R) (placeAt lefts position value)
      (placeAt rights position value') := by
  simp only [placeAt, elements.length_eq]
  split
  · exact same_set elements position values
  · apply List.rel_append
    · exact List.rel_append elements (same_replicate _)
    · exact .cons values .nil

namespace Container.Same

variable {left right : Heap} {container container' : Container} {key key' : Key}

theorem property (containers : container.Same R container') (heaps : left.Same R right)
    (keys : key.Same R key') :
    (container.property left key).Same R (container'.property right key') := by
  cases containers with
  | array elements =>
      simp only [Container.property, keys.eq_named_iff, elements.length_eq, keys.position?_eq heaps]
      split
      · exact .number _
      · cases key'.position? right with
        | none => exact .undefined
        | some position => exact same_getD (same_getElem? elements position)
  | object properties =>
      simp only [Container.property, keys.text_eq heaps]
      exact same_getD (properties.get? _)

/-- A write fails in both containers for the same reason, or in neither of them. -/
theorem setProperty (containers : container.Same R container') (heaps : left.Same R right)
    (keys : key.Same R key') {value value' : Value} (values : value.Same R value') :
    (∃ fault, container.setProperty left key value = .error fault ∧
      container'.setProperty right key' value' = .error fault) ∨
        ∃ after after', container.setProperty left key value = .ok after ∧
          container'.setProperty right key' value' = .ok after' ∧ after.Same R after' := by
  cases containers with
  | array elements =>
      simp only [Container.setProperty, keys.position?_eq heaps, elements.length_eq]
      cases key'.position? right with
      | none => exact .inl ⟨_, rfl, rfl⟩
      | some position =>
          dsimp only
          split
          · exact .inl ⟨_, rfl, rfl⟩
          · exact .inr ⟨_, _, rfl, rfl, .array (same_placeAt elements position values)⟩
  | object properties =>
      right
      simp only [Container.setProperty, keys.text_eq heaps]
      exact ⟨_, _, rfl, rfl, .object (properties.insert _ values)⟩

end Container.Same

namespace Heap.Same

variable {left right : Heap} {object object' : Value} {key key' : Key}

theorem property? (heaps : left.Same R right) (objects : object.Same R object')
    (keys : key.Same R key') :
    Option.Rel (Value.Same R) (left.property? object key) (right.property? object' key') := by
  cases objects with
  | container related =>
      rcases heaps.containers related with ⟨container, container', found, found', containers⟩
      simp only [Heap.property?, found, found', Option.map_some]
      exact .some (containers.property heaps keys)
  | _ => exact .none

/-- Other content for two containers that stand for each other, the same for both of them. -/
theorem set (heaps : left.Same R right) {location location' : Location}
    (related : R location location') {container container' : Container}
    (containers : container.Same R container') :
    (left.set location container).Same R (right.set location' container') where
  containers {other other'} others := by
    rcases heaps.containers others with ⟨held, held', found, found', same⟩
    have distinct : location = other ↔ location' = other' :=
      Relator.rel_eq heaps.unique related others
    by_cases here : location = other
    · have here' := distinct.mp here
      subst here here'
      exact ⟨container, container', get?_set_self found _, get?_set_self found' _, containers⟩
    · refine ⟨held, held', ?_, ?_, same⟩
      · rw [get?_set_of_ne _ _ here, found]
      · rw [get?_set_of_ne _ _ (distinct.not.mp here), found']
  unique := heaps.unique

/-- A write fails in both heaps for the same reason, or in neither of them. -/
theorem setProperty (heaps : left.Same R right) (objects : object.Same R object')
    (keys : key.Same R key') {value value' : Value} (values : value.Same R value') :
    (∃ fault, left.setProperty object key value = .error fault ∧
      right.setProperty object' key' value' = .error fault) ∨
        ∃ after after', left.setProperty object key value = .ok after ∧
          right.setProperty object' key' value' = .ok after' ∧ after.Same R after' := by
  cases objects with
  | container related =>
      rcases heaps.containers related with ⟨container, container', found, found', containers⟩
      simp only [Heap.setProperty, found, found']
      rcases containers.setProperty heaps keys values with
        ⟨fault, failed, failed'⟩ | ⟨after, after', done, done', afters⟩
      · rw [failed, failed']
        exact .inl ⟨fault, rfl, rfl⟩
      · rw [done, done']
        exact .inr ⟨_, _, rfl, rfl, heaps.set related afters⟩
  | _ => exact .inl ⟨_, rfl, rfl⟩

end Heap.Same

/-- The renaming with one more container on each side, which stand for each other. -/
def Renaming.extend (R : Renaming) (new new' : Location) : Renaming := fun location location' =>
  R location location' ∨ location = new ∧ location' = new'

theorem Renaming.le_extend (R : Renaming) (new new' : Location) : R ≤ R.extend new new' :=
  fun _ _ => .inl

/-- New containers stand for each other. -/
theorem Heap.Same.alloc {left right : Heap} (heaps : left.Same R right)
    {container container' : Container} (containers : container.Same R container') :
    (left.alloc container).2.Same (R.extend left.containers.size right.containers.size)
      (right.alloc container').2 where
  containers related := by
    have le := R.le_extend left.containers.size right.containers.size
    rcases related with related | ⟨rfl, rfl⟩
    · rcases heaps.containers related with ⟨held, held', found, found', same⟩
      refine ⟨held, held', ?_, ?_, same.mono le⟩
      · rw [get?_alloc_of_lt _ _ (lt_size_of_get? found), found]
      · rw [get?_alloc_of_lt _ _ (lt_size_of_get? found'), found']
    · exact ⟨container, container', get?_alloc_self _ _, get?_alloc_self _ _,
        containers.mono le⟩
  unique := by
    have old : ∀ {location location'}, R location location' →
        location < left.containers.size ∧ location' < right.containers.size := by
      intro location location' related
      rcases heaps.containers related with ⟨held, held', found, found', -⟩
      exact ⟨lt_size_of_get? found, lt_size_of_get? found'⟩
    constructor
    · rintro location other location' (related | ⟨rfl, rfl⟩) (related' | ⟨rfl, isNew⟩)
      · exact heaps.unique.1 related related'
      · exact absurd isNew (Nat.ne_of_lt (old related).2)
      · exact absurd rfl (Nat.ne_of_lt (old related').2)
      · rfl
    · rintro location location' other (related | ⟨rfl, rfl⟩) (related' | ⟨isNew, rfl⟩)
      · exact heaps.unique.2 related related'
      · exact absurd isNew (Nat.ne_of_lt (old related).1)
      · exact absurd rfl (Nat.ne_of_lt (old related').1)
      · rfl

end Descriptor
