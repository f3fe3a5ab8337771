import Descriptor.Proofs.Number.Integer
import Descriptor.Proofs.Rendering.Building
import Descriptor.Value.Json

/-!
# Values that cross to the host and back

A document that is read as a value and written again comes back with its numbers settled: integers
of at most `9007199254740991` in magnitude as integers, and all other numbers as the nearest
binary64 number.  Nothing else changes in it.  What is written of a value is settled already, so
that it crosses any number of times as it is: `json_crossing`.
-/

namespace Descriptor

/-! ## Documents -/

namespace Json

/-- The members are in the order of their names, one for each name. -/
abbrev Sorted (members : List (String × Json)) : Prop :=
  members.Pairwise fun member other => member.1 < other.1

mutual

/-- The documents that there are.  Integers have 64 bits, with a sign or without, other numbers are
finite, and the members of every object are in order. -/
def WellFormed : Json → Prop
  | .null => True
  | .bool _ => True
  | .integer value => -2 ^ 63 ≤ value ∧ value < 2 ^ 64
  | .float value => ∃ negative pattern, Binary64.form value = .finite negative pattern
  | .string _ => True
  | .array items => WellFormedItems items
  | .object members => Sorted members ∧ WellFormedMembers members

/-- Whether all items of an array are well-formed. -/
def WellFormedItems : List Json → Prop
  | [] => True
  | item :: items => item.WellFormed ∧ WellFormedItems items

/-- Whether all members of an object are well-formed. -/
def WellFormedMembers : List (String × Json) → Prop
  | [] => True
  | (_, document) :: members => document.WellFormed ∧ WellFormedMembers members

end

/-- A finite number in a document: an integer, if it is a safe one. -/
def settledNumber (x : Float) : Json :=
  match Binary64.toInt? x with
  | some n => if n.natAbs ≤ 9007199254740991 then .integer n else .float x
  | none => .float x

mutual

/-- The document with its numbers settled. -/
def settled : Json → Json
  | .null => .null
  | .bool value => .bool value
  | .integer value => settledNumber (Binary64.ofInt value)
  | .float value => settledNumber value
  | .string text => .string text
  | .array items => .array (settledItems items)
  | .object members => .object (settledMembers members)

/-- The items of an array with their numbers settled. -/
def settledItems : List Json → List Json
  | [] => []
  | item :: items => item.settled :: settledItems items

/-- The members of an object with their numbers settled. -/
def settledMembers : List (String × Json) → List (String × Json)
  | [] => []
  | (name, document) :: members => (name, document.settled) :: settledMembers members

end

theorem wellFormedItems_iff {items : List Json} :
    WellFormedItems items ↔ ∀ item ∈ items, item.WellFormed := by
  induction items with
  | nil => simp [WellFormedItems]
  | cons item items ih => simp [WellFormedItems, ih]

theorem wellFormedMembers_iff {members : List (String × Json)} :
    WellFormedMembers members ↔ ∀ member ∈ members, member.2.WellFormed := by
  induction members with
  | nil => simp [WellFormedMembers]
  | cons member members ih => simp [WellFormedMembers, ih]

theorem settledItems_eq_map (items : List Json) : settledItems items = items.map settled := by
  induction items with
  | nil => rfl
  | cons item items ih => rw [settledItems, ih, List.map_cons]

theorem settledMembers_eq_map (members : List (String × Json)) :
    settledMembers members = members.map (Prod.map id settled) := by
  induction members with
  | nil => rfl
  | cons member members ih =>
      rcases member with ⟨name, document⟩
      rw [settledMembers, ih, List.map_cons, Prod.map_apply, id]

/-- What crosses as it is. -/
structure Settled (document : Json) : Prop where
  wellFormed : document.WellFormed
  same : document.settled = document

theorem Settled.array {items : List Json} (each : ∀ item ∈ items, item.Settled) :
    (array items).Settled where
  wellFormed := wellFormedItems_iff.mpr fun item member => (each item member).wellFormed
  same := by
    have same : ∀ item ∈ items, item.settled = item := fun item member => (each item member).same
    rw [settled, settledItems_eq_map, List.map_congr_left same, List.map_id']

theorem Settled.object {members : List (String × Json)} (sorted : Sorted members)
    (each : ∀ member ∈ members, member.2.Settled) : (object members).Settled where
  wellFormed :=
    ⟨sorted, wellFormedMembers_iff.mpr fun member isMember => (each member isMember).wellFormed⟩
  same := by
    have same : ∀ member ∈ members, Prod.map id settled member = member := fun member isMember =>
      Prod.ext rfl (each member isMember).same
    rw [settled, settledMembers_eq_map, List.map_congr_left same, List.map_id']

/-! ## Numbers -/

theorem ofNumber_of_finite {x : Float} {negative : Bool} {pattern : Nat}
    (finite : Binary64.form x = .finite negative pattern) : ofNumber x = settledNumber x := by
  rw [ofNumber, settledNumber, finite]
  cases Binary64.toInt? x <;> rfl

/-- A safe integer stays what it is. -/
theorem settled_integer {n : Int} (safe : n.natAbs ≤ 9007199254740991) :
    (integer n).settled = integer n := by
  rw [settled, settledNumber, Binary64.toInt?_ofInt (by omega)]
  exact if_pos safe

/-- The document of a number is settled, whatever the number. -/
theorem settled_ofNumber (x : Float) : (ofNumber x).Settled := by
  cases isForm : Binary64.form x with
  | nan => rw [ofNumber, isForm]; exact ⟨trivial, rfl⟩
  | infinite _ => rw [ofNumber, isForm]; exact ⟨trivial, rfl⟩
  | finite negative pattern =>
      rw [ofNumber_of_finite isForm]
      have isFloat : settledNumber x = .float x → (settledNumber x).Settled := by
        intro isFloat
        rw [isFloat]
        exact ⟨⟨negative, pattern, isForm⟩, isFloat⟩
      cases isInt : Binary64.toInt? x with
      | none => exact isFloat (by rw [settledNumber, isInt])
      | some n =>
          by_cases safe : n.natAbs ≤ 9007199254740991
          · have isInteger : settledNumber x = .integer n := by
              rw [settledNumber, isInt]
              exact if_pos safe
            rw [isInteger]
            exact ⟨by unfold WellFormed; omega, settled_integer safe⟩
          · exact isFloat (by rw [settledNumber, isInt]; exact if_neg safe)

/-! ## Members in order -/

theorem mem_insertMember {name : String} {document : Json} {members : List (String × Json)}
    {member : String × Json} (isMember : member ∈ insertMember name document members) :
    member = (name, document) ∨ member ∈ members := by
  induction members with
  | nil => exact .inl (List.mem_singleton.mp isMember)
  | cons first members ih =>
      rw [insertMember] at isMember
      split at isMember
      · exact List.mem_cons.mp isMember
      · split at isMember
        · exact (List.mem_cons.mp isMember).imp_right (List.mem_cons_of_mem _)
        · rcases List.mem_cons.mp isMember with rfl | isMember
          · exact .inr List.mem_cons_self
          · exact (ih isMember).imp_right (List.mem_cons_of_mem _)

theorem sorted_insertMember (name : String) (document : Json) {members : List (String × Json)}
    (sorted : Sorted members) : Sorted (insertMember name document members) := by
  induction members with
  | nil => exact List.pairwise_singleton _ _
  | cons first members ih =>
      rcases List.pairwise_cons.mp sorted with ⟨before, others⟩
      rw [insertMember]
      split
      · rename_i less
        refine List.pairwise_cons.mpr ⟨fun member isMember => ?_, sorted⟩
        rcases List.mem_cons.mp isMember with rfl | isMember
        · exact less
        · exact less.trans (before member isMember)
      · rename_i notLess
        split
        · rename_i same
          rw [beq_iff_eq] at same
          subst same
          exact List.pairwise_cons.mpr ⟨before, others⟩
        · rename_i other
          rw [beq_iff_eq] at other
          refine List.pairwise_cons.mpr ⟨fun member isMember => ?_, ih others⟩
          rcases mem_insertMember isMember with rfl | isMember
          · exact lt_of_le_of_ne (not_lt.mp notLess) (Ne.symm other)
          · exact before member isMember

/-- A member that comes last is put behind the others. -/
theorem insertMember_of_last {name : String} {members : List (String × Json)}
    (last : ∀ member ∈ members, member.1 < name) (document : Json) :
    insertMember name document members = members ++ [(name, document)] := by
  induction members with
  | nil => rfl
  | cons first members ih =>
      rw [List.forall_mem_cons] at last
      rw [insertMember, if_neg last.1.asymm, if_neg (by simpa using last.1.ne'), ih last.2,
        List.cons_append]

/-- Members in order are an object as they are. -/
theorem ofMembers_of_sorted {members : List (String × Json)} (sorted : Sorted members) :
    ofMembers members = .object members := by
  suffices folded : ∀ before : List (String × Json), Sorted (before ++ members) →
      members.foldl (fun sorted member => insertMember member.1 member.2 sorted) before =
        before ++ members by
    rw [ofMembers, folded [] sorted, List.nil_append]
  clear sorted
  intro before sorted
  induction members generalizing before with
  | nil => simp
  | cons member members ih =>
      have last : ∀ other ∈ before, other.1 < member.1 := fun other isOther =>
        (List.pairwise_append.mp sorted).2.2 other isOther member List.mem_cons_self
      rw [List.foldl_cons, insertMember_of_last last, ih, List.append_assoc, List.singleton_append]
      rwa [List.append_assoc, List.singleton_append]

/-- An object of settled documents is settled, in whatever order it was given. -/
theorem settled_ofMembers {members : List (String × Json)}
    (each : ∀ member ∈ members, member.2.Settled) : (ofMembers members).Settled := by
  suffices folded : ∀ before : List (String × Json), Sorted before →
      (∀ member ∈ before, member.2.Settled) →
      (object (members.foldl (fun sorted member => insertMember member.1 member.2 sorted)
        before)).Settled from
    folded [] .nil nofun
  intro before sorted settled
  induction members generalizing before with
  | nil => exact .object sorted settled
  | cons member members ih =>
      rw [List.forall_mem_cons] at each
      refine ih each.2 _ (sorted_insertMember _ _ sorted) fun other isOther => ?_
      rcases mem_insertMember isOther with rfl | isOther
      · exact each.1
      · exact settled other isOther

end Json

/-! ## What is written is settled -/

/-- The document of a value is settled, in any heap. -/
theorem Heap.settled_jsonWithin (heap : Heap) (opened : List Location) (value : Value) :
    (heap.jsonWithin opened value).Settled := by
  fun_induction Heap.jsonWithin heap opened value with
  | case4 opened x => exact Json.settled_ofNumber x
  | case8 opened location fresh elements found ih =>
      refine .array fun document isItem => ?_
      rcases List.mem_map.mp isItem with ⟨element, -, rfl⟩
      exact ih element
  | case9 opened location fresh properties found ih =>
      refine Json.settled_ofMembers fun member isMember => ?_
      rcases List.mem_map.mp isMember with ⟨entry, -, rfl⟩
      exact ih entry.2
  | _ => exact ⟨trivial, rfl⟩

/-! ## What is read lies in new containers -/

theorem Heap.LiesIn.size_le {before after : Heap} (lies : before.LiesIn after) :
    before.containers.size ≤ after.containers.size := by
  cases isSize : before.containers.size with
  | zero => exact Nat.zero_le _
  | succ last =>
      have inside : last < before.containers.size := by omega
      exact lt_size_of_get? (lies last _ (Array.getElem?_eq_getElem inside))

/-- All that was built is there, and none of it is opened. -/
structure Heap.Unopened (built after : Heap) (opened : List Location) : Prop where
  lies : built.LiesIn after
  outside : ∀ location ∈ opened, built.containers.size ≤ location

theorem Heap.Unopened.of_liesIn {before built after : Heap} {opened : List Location}
    (unopened : built.Unopened after opened) (earlier : before.LiesIn built) :
    before.Unopened after opened where
  lies := earlier.trans unopened.lies
  outside location isOpened := earlier.size_le.trans (unopened.outside location isOpened)

/-- The container that was built last may be opened, with all that was built before it inside. -/
theorem Heap.Unopened.of_alloc {built after : Heap} {container : Container}
    {opened : List Location} (unopened : (built.alloc container).2.Unopened after opened) :
    after.get? built.containers.size = some container ∧ built.containers.size ∉ opened ∧
      built.Unopened after (built.containers.size :: opened) := by
  have size : (built.alloc container).2.containers.size = built.containers.size + 1 := by
    simp [alloc]
  refine ⟨unopened.lies _ _ (get?_alloc_self built container), fun isOpened => ?_, ?_, ?_⟩
  · have := unopened.outside _ isOpened
    omega
  · exact (liesIn_alloc built container).trans unopened.lies
  · rw [List.forall_mem_cons]
    refine ⟨le_rfl, fun location isOpened => ?_⟩
    have := unopened.outside location isOpened
    omega

theorem Heap.jsonWithin_array {heap : Heap} {opened : List Location} {location : Location}
    {elements : List Value} (found : heap.get? location = some (.array elements))
    (fresh : location ∉ opened) :
    heap.jsonWithin opened (.container location) =
      .array (elements.map (heap.jsonWithin (location :: opened))) := by
  rw [jsonWithin, dif_neg fresh]
  split <;> simp_all

theorem Heap.jsonWithin_object {heap : Heap} {opened : List Location} {location : Location}
    {properties : Record Value} (found : heap.get? location = some (.object properties))
    (fresh : location ∉ opened) :
    heap.jsonWithin opened (.container location) =
      .ofMembers (properties.entries.map
        (Prod.map id (heap.jsonWithin (location :: opened)))) := by
  rw [jsonWithin, dif_neg fresh]
  split
  · simp_all
  · simp_all
  · rename_i found'
    rw [found] at found'
    cases found'
    rfl

theorem Record.entries_ofList {α : Type} {entries : List (String × α)}
    (distinct : (entries.map Prod.fst).Nodup) : (ofList entries).entries = entries :=
  @entries_insertAll _ empty _ distinct

namespace Json

mutual

/-- Reading a document leaves the containers that are there as they are. -/
theorem liesIn_toValue : ∀ (document : Json) (heap : Heap), heap.LiesIn (document.toValue heap).2
  | .null, heap => .refl heap
  | .bool _, heap => .refl heap
  | .integer _, heap => .refl heap
  | .float _, heap => .refl heap
  | .string _, heap => .refl heap
  | .array items, heap => (liesIn_itemValues items heap).trans (Heap.liesIn_alloc _ _)
  | .object members, heap => (liesIn_memberValues members heap).trans (Heap.liesIn_alloc _ _)

/-- Reading items leaves the containers that are there as they are. -/
theorem liesIn_itemValues :
    ∀ (items : List Json) (heap : Heap), heap.LiesIn (itemValues heap items).2
  | [], heap => .refl heap
  | item :: items, heap => (liesIn_toValue item heap).trans (liesIn_itemValues items _)

/-- Reading members leaves the containers that are there as they are. -/
theorem liesIn_memberValues :
    ∀ (members : List (String × Json)) (heap : Heap), heap.LiesIn (memberValues heap members).2
  | [], heap => .refl heap
  | (_, document) :: members, heap =>
      (liesIn_toValue document heap).trans (liesIn_memberValues members _)

end

theorem names_memberValues (members : List (String × Json)) (heap : Heap) :
    (memberValues heap members).1.map Prod.fst = members.map Prod.fst := by
  induction members generalizing heap with
  | nil => rfl
  | cons member members ih => rw [memberValues, List.map_cons, List.map_cons, ih]

theorem sorted_settledMembers {members : List (String × Json)} (sorted : Sorted members) :
    Sorted (settledMembers members) := by
  rw [settledMembers_eq_map]
  exact List.pairwise_map.mpr sorted

mutual

/-- What was read of a document is written as the document with its numbers settled, while more
containers may have come, and inside any of those. -/
theorem jsonWithin_toValue :
    ∀ (document : Json), document.WellFormed → ∀ {heap after : Heap} {opened : List Location},
      (document.toValue heap).2.Unopened after opened →
        after.jsonWithin opened (document.toValue heap).1 = document.settled
  | .null, _, _, _, _, _ => by rw [toValue, Heap.jsonWithin, settled]
  | .bool _, _, _, _, _, _ => by rw [toValue, Heap.jsonWithin, settled]
  | .integer value, range, _, _, _, _ => by
      have small : value.natAbs ≤ 2 ^ 64 := by
        unfold WellFormed at range
        omega
      rcases Binary64.exists_form_ofInt small with ⟨negative, pattern, finite⟩
      rw [toValue, Heap.jsonWithin, settled, ofNumber_of_finite finite]
  | .float _, ⟨_, _, finite⟩, _, _, _, _ => by
      rw [toValue, Heap.jsonWithin, settled, ofNumber_of_finite finite]
  | .string _, _, _, _, _, _ => by rw [toValue, Heap.jsonWithin, settled]
  | .array items, wellFormed, _, _, _, unopened => by
      rcases unopened.of_alloc with ⟨found, fresh, unopened⟩
      rw [toValue, Heap.alloc, Heap.jsonWithin_array found fresh, settled,
        map_jsonWithin_itemValues items wellFormed unopened]
  | .object members, ⟨sorted, wellFormed⟩, heap, _, _, unopened => by
      rcases unopened.of_alloc with ⟨found, fresh, unopened⟩
      have distinct : ((memberValues heap members).1.map Prod.fst).Nodup := by
        rw [names_memberValues]
        exact (List.pairwise_map.mpr sorted).imp ne_of_lt
      rw [toValue, Heap.alloc, Heap.jsonWithin_object found fresh, Record.entries_ofList distinct,
        map_jsonWithin_memberValues members wellFormed unopened,
        ofMembers_of_sorted (sorted_settledMembers sorted), settled]

/-- What was read of the items of an array is written as the items. -/
theorem map_jsonWithin_itemValues :
    ∀ (items : List Json), WellFormedItems items → ∀ {heap after : Heap} {opened : List Location},
      (itemValues heap items).2.Unopened after opened →
        (itemValues heap items).1.map (after.jsonWithin opened) = settledItems items
  | [], _, _, _, _, _ => rfl
  | item :: items, ⟨wellFormed, others⟩, _, _, _, unopened => by
      rw [itemValues, List.map_cons, settledItems,
        jsonWithin_toValue item wellFormed (unopened.of_liesIn (liesIn_itemValues items _)),
        map_jsonWithin_itemValues items others unopened]

/-- What was read of the members of an object is written as the members. -/
theorem map_jsonWithin_memberValues :
    ∀ (members : List (String × Json)), WellFormedMembers members →
      ∀ {heap after : Heap} {opened : List Location},
        (memberValues heap members).2.Unopened after opened →
          (memberValues heap members).1.map (Prod.map id (after.jsonWithin opened)) =
            settledMembers members
  | [], _, _, _, _, _ => rfl
  | (_, document) :: members, ⟨wellFormed, others⟩, _, _, _, unopened => by
      rw [memberValues, List.map_cons, settledMembers, Prod.map_apply, id,
        jsonWithin_toValue document wellFormed (unopened.of_liesIn (liesIn_memberValues members _)),
        map_jsonWithin_memberValues members others unopened]

end

/-- A document that is read into any heap is written with its numbers settled. -/
theorem json_toValue {document : Json} (wellFormed : document.WellFormed) (heap : Heap) :
    (document.toValue heap).2.json (document.toValue heap).1 = document.settled :=
  jsonWithin_toValue document wellFormed ⟨.refl _, nofun⟩

end Json

/-- What is written of a value of any heap, cycles and shared containers included, is read into any
heap and written again as it is.  Every document that is read and written again comes back with its
numbers settled and nothing else changed. -/
theorem json_crossing (base : Heap) :
    (∀ (heap : Heap) (value : Value),
      let crossed := (heap.json value).toValue base
      crossed.2.json crossed.1 = heap.json value) ∧
    ∀ document : Json, document.WellFormed →
      let crossed := document.toValue base
      crossed.2.json crossed.1 = document.settled := by
  constructor
  · intro heap value
    have settled := heap.settled_jsonWithin [] value
    exact (Json.json_toValue settled.wellFormed base).trans settled.same
  · intro document wellFormed
    exact Json.json_toValue wellFormed base

/-- An array that holds itself and a negative zero, and an object whose first member is rounded. -/
theorem json_crossing_rounded :
    let heap : Heap := ⟨#[.array [.container 0, .number (Binary64.ofPattern true 0)]]⟩
    let document : Json :=
      .object [("a", .integer (2 ^ 60 + 1)), ("b", .array [.integer 3, .null])]
    let crossed := (heap.json (.container 0)).toValue heap
    let crossed' := document.toValue heap
    document.WellFormed ∧ crossed.2.json crossed.1 = heap.json (.container 0) ∧
      crossed'.2.json crossed'.1 = document.settled ∧
      document.settled =
        .object [("a", .float (Binary64.ofInt (2 ^ 60))), ("b", .array [.integer 3, .null])] := by
  intro heap document crossed crossed'
  have wellFormed : document.WellFormed := by
    have sorted : ("a" : String) < "b" := by decide
    simpa [document, Json.WellFormed, Json.WellFormedMembers, Json.WellFormedItems] using sorted
  have rounded : Binary64.ofInt (2 ^ 60 + 1) = Binary64.ofInt (2 ^ 60) := by decide +kernel
  have isInt : Binary64.toInt? (Binary64.ofInt (2 ^ 60)) = some (2 ^ 60) := by decide +kernel
  have first : (Json.integer (2 ^ 60 + 1)).settled = .float (Binary64.ofInt (2 ^ 60)) := by
    rw [Json.settled, rounded, Json.settledNumber, isInt]
    rfl
  have second : (Json.integer 3).settled = .integer 3 := Json.settled_integer (by decide)
  refine ⟨wellFormed, (json_crossing heap).1 heap _, (json_crossing heap).2 document wellFormed, ?_⟩
  simp only [document, Json.settled, Json.settledMembers, Json.settledItems] at first second ⊢
  rw [first, second]

end Descriptor
