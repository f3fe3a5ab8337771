import Descriptor.Value.Equality
import Mathlib

/-!
# Structural equality

Two values are structurally equal exactly if no positions, followed in both of them at once, lead
to a difference.  This says nothing of how the comparison ends: containers may hold themselves,
and two of them may repeat at different lengths.

The comparison takes a pair of containers as equal while it is being compared, and forgets it
afterwards.  The proof is therefore about the differences that are reached without passing any of
such pairs.  Whatever is reached through a pair is reached from the last visit to it as well, so
that a pair that is being compared can be left out.
-/

namespace Descriptor

/-! ## Equality of numbers -/

namespace Binary64

theorem beq_symm {left right : Float} (equal : (left == right) = true) :
    (right == left) = true := by
  rw [Float.beq_iff_ne_nan_and_eq] at equal ⊢
  grind

theorem beq_trans {first second third : Float} (left : (first == second) = true)
    (right : (second == third) = true) : (first == third) = true := by
  rw [Float.beq_iff_ne_nan_and_eq] at left right ⊢
  grind

end Binary64

namespace Value

theorem strictEquals_symm {left right : Value} (equal : left.strictEquals right = true) :
    right.strictEquals left = true := by
  cases left <;> cases right <;> simp_all [strictEquals]
  exact Binary64.beq_symm equal

theorem strictEquals_trans {first second third : Value}
    (left : first.strictEquals second = true) (right : second.strictEquals third = true) :
    first.strictEquals third = true := by
  cases first <;> cases second <;> cases third <;> simp_all [strictEquals]
  exact Binary64.beq_trans left right

end Value

/-! ## Differences -/

/-- What a container shows without being opened: its form, and its length or its names. -/
inductive Outline where
  | array (length : Nat)
  | object (names : List String)
  deriving Repr, DecidableEq

/-- The outline of a container. -/
def Container.outline : Container → Outline
  | .array elements => .array elements.length
  | .object properties => .object properties.names

/-- Containers of one outline hold as many values. -/
theorem Container.length_values_of_outline_eq {left right : Container}
    (same : left.outline = right.outline) : left.values.length = right.values.length := by
  cases left <;> cases right <;> simp_all [outline, values]
  simpa [Record.names] using congrArg List.length same

namespace Heap

variable {heap : Heap}

/-- The outline of the container at a location. -/
def outline? (heap : Heap) (location : Location) : Option Outline :=
  (heap.get? location).map Container.outline

/-- What the container at a location holds at a position: an element, or the value of an entry. -/
def at? (heap : Heap) (location : Location) (position : Nat) : Option Value :=
  (heap.get? location).bind (·.values[position]?)

/-- Whether two values differ by themselves.  Two containers do if they are not the same one and
their outlines are not the same, and so does a location without container beside any other one.
Other values do if they are of different forms, or unequal. -/
def Differ (heap : Heap) : Value → Value → Prop
  | .container left, .container right =>
      left ≠ right ∧ ¬∃ outline, heap.outline? left = some outline ∧
        heap.outline? right = some outline
  | left, right => left.strictEquals right = false

/-- From two values the positions of `path`, followed in both at once, lead to two others.  No
position is followed from a container beside itself. -/
inductive Leads (heap : Heap) : (path : List Nat) → (left right left' right' : Value) → Prop where
  | here {left right : Value} : Leads heap [] left right left right
  | follow {left right : Location} {position : Nat} {path : List Nat}
      {left' right' left'' right'' : Value} (distinct : left ≠ right)
      (leftHolds : heap.at? left position = some left')
      (rightHolds : heap.at? right position = some right')
      (rest : Leads heap path left' right' left'' right'') :
      Leads heap (position :: path) (.container left) (.container right) left'' right''

/-! ## Differences that are reached without passing a pair -/

/-- Whether two values are a pair of containers that is being compared. -/
def Compared (compared : List (Location × Location)) (left right : Value) : Prop :=
  ∃ pair ∈ compared, left = .container pair.1 ∧ right = .container pair.2

@[simp]
theorem compared_container_iff {compared : List (Location × Location)} {left right : Location} :
    Compared compared (.container left) (.container right) ↔ (left, right) ∈ compared := by
  constructor
  · rintro ⟨pair, member, isLeft, isRight⟩
    cases isLeft
    cases isRight
    exact member
  · intro member
    exact ⟨(left, right), member, rfl, rfl⟩

/-- Two values that differ can be reached, without passing or reaching a pair that is being
compared. -/
inductive Distinguished (heap : Heap) (compared : List (Location × Location)) :
    Value → Value → Prop where
  | here {left right : Value} (fresh : ¬Compared compared left right)
      (differ : heap.Differ left right) : Distinguished heap compared left right
  | follow {left right : Location} {position : Nat} {left' right' : Value}
      (fresh : (left, right) ∉ compared) (distinct : left ≠ right)
      (leftHolds : heap.at? left position = some left')
      (rightHolds : heap.at? right position = some right')
      (rest : Distinguished heap compared left' right') :
      Distinguished heap compared (.container left) (.container right)

theorem distinguished_nil_iff {left right : Value} :
    heap.Distinguished [] left right ↔
      ∃ path left' right', heap.Leads path left right left' right' ∧
        heap.Differ left' right' := by
  constructor
  · intro distinguished
    induction distinguished with
    | here _ differ => exact ⟨[], _, _, .here, differ⟩
    | @follow _ _ position _ _ _ distinct leftHolds rightHolds _ ih =>
        rcases ih with ⟨path, left', right', leads, differ⟩
        exact ⟨position :: path, left', right',
          .follow distinct leftHolds rightHolds leads, differ⟩
  · rintro ⟨path, left', right', leads, differ⟩
    induction leads with
    | here => exact .here (by simp [Compared]) differ
    | follow distinct leftHolds rightHolds _ ih =>
        exact .follow List.not_mem_nil distinct leftHolds rightHolds (ih differ)

/-- What is reached with more pairs to be left out is reached with fewer. -/
theorem Distinguished.of_cons {compared : List (Location × Location)}
    {pair : Location × Location} {left right : Value}
    (distinguished : heap.Distinguished (pair :: compared) left right) :
    heap.Distinguished compared left right := by
  induction distinguished with
  | here fresh differ =>
      apply Distinguished.here _ differ
      rintro ⟨other, member, isPair⟩
      exact fresh ⟨other, List.mem_cons_of_mem _ member, isPair⟩
  | follow fresh distinct leftHolds rightHolds _ ih =>
      exact .follow (fun member => fresh (List.mem_cons_of_mem _ member)) distinct leftHolds
        rightHolds ih

/-- A difference is reached without passing a given pair, or else it lies at this pair or behind
the last visit to it. -/
theorem Distinguished.cases_cons {compared : List (Location × Location)} {left right : Value}
    (distinguished : heap.Distinguished compared left right) (first second : Location) :
    heap.Distinguished ((first, second) :: compared) left right ∨
      heap.Differ (.container first) (.container second) ∨
        ∃ position left' right', heap.at? first position = some left' ∧
          heap.at? second position = some right' ∧
            heap.Distinguished ((first, second) :: compared) left' right' := by
  induction distinguished with
  | @here left right fresh differ =>
      by_cases same : left = .container first ∧ right = .container second
      · rcases same with ⟨rfl, rfl⟩
        exact .inr (.inl differ)
      · left
        apply Distinguished.here _ differ
        rintro ⟨pair, member, isPair⟩
        rcases List.mem_cons.mp member with rfl | member
        · exact same isPair
        · exact fresh ⟨pair, member, isPair⟩
  | @follow left right position left' right' fresh distinct leftHolds rightHolds _ ih =>
      rcases ih with rest | behind
      · by_cases same : (left, right) = (first, second)
        · cases same
          exact .inr (.inr ⟨position, left', right', leftHolds, rightHolds, rest⟩)
        · left
          apply Distinguished.follow _ distinct leftHolds rightHolds rest
          intro member
          rcases List.mem_cons.mp member with isPair | member
          · exact same isPair
          · exact fresh member
      · exact .inr behind

/-! ## The comparison finds what is distinguished -/

/-- Two lists agree in each pair of their zip exactly if they agree at each position. -/
theorem forall_mem_zip_iff {α β : Type} {lefts : List α} {rights : List β}
    (Agree : α → β → Prop) :
    (∀ pair ∈ lefts.zip rights, Agree pair.1 pair.2) ↔
      ∀ (position : Nat) left right, lefts[position]? = some left →
        rights[position]? = some right → Agree left right := by
  constructor
  · intro all position left right isLeft isRight
    exact all (left, right)
      (List.mem_of_getElem? (List.getElem?_zip_eq_some.mpr ⟨isLeft, isRight⟩))
  · intro agree pair member
    rcases List.mem_iff_getElem?.mp member with ⟨position, found⟩
    rcases List.getElem?_zip_eq_some.mp found with ⟨isLeft, isRight⟩
    exact agree position pair.1 pair.2 isLeft isRight

/-- Entries have the same names in the same order exactly if they are as many and each pair of
their zip has one name. -/
theorem map_fst_eq_iff {α : Type} {lefts rights : List (String × α)} :
    lefts.map Prod.fst = rights.map Prod.fst ↔
      lefts.length = rights.length ∧ ∀ pair ∈ lefts.zip rights, pair.1.1 = pair.2.1 := by
  induction lefts generalizing rights with
  | nil => cases rights <;> simp
  | cons left lefts ih =>
      cases rights with
      | nil => simp
      | cons right rights => simp [ih, and_left_comm]

/-- Arrays agree if they are of one length and agree at each position. -/
theorem agree_array_iff {lefts rights : List Value} {agree : Value → Value → Bool} :
    (lefts.length == rights.length &&
      (lefts.zip rights).all fun pair => agree pair.1 pair.2) = true ↔
      (Container.array lefts).outline = (Container.array rights).outline ∧
        ∀ (position : Nat) left right, (Container.array lefts).values[position]? = some left →
          (Container.array rights).values[position]? = some right →
            agree left right = true := by
  simp only [Bool.and_eq_true, beq_iff_eq, List.all_eq_true, Container.outline,
    Outline.array.injEq, Container.values]
  rw [forall_mem_zip_iff fun left right => agree left right = true]

/-- Objects agree if they have the same names in the same order and agree at each position. -/
theorem agree_object_iff {lefts rights : Record Value} {agree : Value → Value → Bool} :
    (lefts.size == rights.size && (lefts.entries.zip rights.entries).all fun pair =>
      pair.1.1 == pair.2.1 && agree pair.1.2 pair.2.2) = true ↔
      (Container.object lefts).outline = (Container.object rights).outline ∧
        ∀ (position : Nat) left right, (Container.object lefts).values[position]? = some left →
          (Container.object rights).values[position]? = some right →
            agree left right = true := by
  simp only [Bool.and_eq_true, beq_iff_eq, List.all_eq_true, Container.outline,
    Outline.object.injEq, Container.values, Record.names, Record.size]
  rw [← forall_mem_zip_iff fun left right => agree left right = true, map_fst_eq_iff,
    List.zip_map, List.forall_mem_map, and_assoc]
  simp only [Prod.map, imp_and, forall_and]

theorem equalWithin_of_scalar {compared : List (Location × Location)} {left right : Value}
    (scalar : ¬∃ location location', left = .container location ∧ right = .container location') :
    heap.equalWithin compared left right = left.strictEquals right := by
  rw [equalWithin]
  intro location location' isLeft isRight
  exact scalar ⟨location, location', isLeft, isRight⟩

theorem differ_of_scalar {left right : Value}
    (scalar : ¬∃ location location', left = .container location ∧ right = .container location') :
    heap.Differ left right ↔ left.strictEquals right = false := by
  unfold Differ
  split
  · exact absurd ⟨_, _, rfl, rfl⟩ scalar
  · rfl

/-- Containers are compared by identity, then by outline, and then position by position. -/
theorem equalWithin_container_iff {compared : List (Location × Location)}
    {left right : Location} :
    heap.equalWithin compared (.container left) (.container right) = true ↔
      left = right ∨ (left, right) ∈ compared ∨
        ¬heap.Differ (.container left) (.container right) ∧
          ∀ position left' right', heap.at? left position = some left' →
            heap.at? right position = some right' →
              heap.equalWithin ((left, right) :: compared) left' right' = true := by
  rw [equalWithin]
  by_cases same : left = right
  · simp [same]
  · by_cases again : (left, right) ∈ compared
    · simp [again]
    · simp only [beq_iff_eq, same, if_false, again, dif_neg, not_false_eq_true, false_or]
      cases leftFound : heap.get? left with
      | none => simp [Differ, same, outline?, leftFound]
      | some leftContainer =>
          cases rightFound : heap.get? right with
          | none => simp [Differ, same, outline?, rightFound]
          | some rightContainer =>
              have outlines : ¬heap.Differ (.container left) (.container right) ↔
                  leftContainer.outline = rightContainer.outline := by
                simp [Differ, same, outline?, leftFound, rightFound, eq_comm]
              simp only [outlines, at?, leftFound, rightFound, Option.bind_some]
              cases leftContainer with
              | array lefts =>
                  cases rightContainer with
                  | array rights => exact agree_array_iff
                  | object rights => simp [Container.outline]
              | object lefts =>
                  cases rightContainer with
                  | array rights => simp [Container.outline]
                  | object rights => exact agree_object_iff

/-- Being compared leaves the pairs that are still to be compared fewer. -/
theorem uncompared_lt_of_at? {compared : List (Location × Location)} {left right : Location}
    {position : Nat} {left' right' : Value} (leftHolds : heap.at? left position = some left')
    (rightHolds : heap.at? right position = some right') (fresh : (left, right) ∉ compared) :
    heap.uncompared ((left, right) :: compared) < heap.uncompared compared := by
  rcases Option.bind_eq_some_iff.mp leftHolds with ⟨leftContainer, leftFound, -⟩
  rcases Option.bind_eq_some_iff.mp rightHolds with ⟨rightContainer, rightFound, -⟩
  exact uncompared_cons_lt leftFound rightFound fresh

/-- Inside the pairs that are being compared, two values are found equal exactly if no difference
is reached without passing such a pair. -/
theorem equalWithin_iff (compared : List (Location × Location)) (left right : Value) :
    heap.equalWithin compared left right = true ↔
      ¬heap.Distinguished compared left right := by
  -- Induction on how many pairs are not being compared yet, as in the comparison itself.
  induction size : heap.uncompared compared using Nat.strongRecOn
    generalizing compared left right with
  | ind size ih =>
      subst size
      by_cases containers : ∃ location location',
          left = .container location ∧ right = .container location'
      · rcases containers with ⟨left, right, rfl, rfl⟩
        rw [equalWithin_container_iff]
        constructor
        · rintro equal distinguished
          cases distinguished with
          | here fresh differ =>
              rw [compared_container_iff] at fresh
              rcases equal with same | again | ⟨alike, -⟩
              · exact differ.1 same
              · exact fresh again
              · exact alike differ
          | follow fresh distinct leftHolds rightHolds rest =>
              rcases equal with same | again | ⟨alike, positions⟩
              · exact distinct same
              · exact fresh again
              · -- The difference may lie behind a later visit to this pair.
                have undistinguished : ∀ position left' right',
                    heap.at? left position = some left' → heap.at? right position = some right' →
                      ¬heap.Distinguished ((left, right) :: compared) left' right' := by
                  intro position left' right' leftHolds rightHolds
                  rw [← ih _ (uncompared_lt_of_at? leftHolds rightHolds fresh) _ _ _ rfl]
                  exact positions position left' right' leftHolds rightHolds
                rcases rest.cases_cons left right with
                  inside | differ | ⟨position, left'', right'', leftHolds', rightHolds', behind⟩
                · exact undistinguished _ _ _ leftHolds rightHolds inside
                · exact alike differ
                · exact undistinguished _ _ _ leftHolds' rightHolds' behind
        · intro undistinguished
          by_cases same : left = right
          · exact .inl same
          · by_cases again : (left, right) ∈ compared
            · exact .inr (.inl again)
            · right
              right
              constructor
              · intro differ
                exact undistinguished (.here (by simpa using again) differ)
              · intro position left' right' leftHolds rightHolds
                rw [ih _ (uncompared_lt_of_at? leftHolds rightHolds again) _ _ _ rfl]
                intro inside
                exact undistinguished (.follow again same leftHolds rightHolds inside.of_cons)
      · rw [equalWithin_of_scalar containers, ← Bool.not_eq_false, ← differ_of_scalar containers]
        apply not_congr
        constructor
        · apply Distinguished.here
          rintro ⟨pair, -, isPair⟩
          exact containers ⟨pair.1, pair.2, isPair⟩
        · intro distinguished
          cases distinguished with
          | here _ differ => exact differ
          | follow => exact absurd ⟨_, _, rfl, rfl⟩ containers

/-- Two values are structurally equal exactly if no path leads to a difference. -/
theorem equal_iff {left right : Value} :
    heap.equal left right = true ↔
      ∀ path left' right', heap.Leads path left right left' right' →
        ¬heap.Differ left' right' := by
  rw [equal, equalWithin_iff, distinguished_nil_iff]
  simp only [not_exists, not_and]

/-! ## Symmetry and transitivity -/

theorem Leads.symm {path : List Nat} {left right left' right' : Value}
    (leads : heap.Leads path left right left' right') :
    heap.Leads path right left right' left' := by
  induction leads with
  | here => exact .here
  | follow distinct leftHolds rightHolds _ ih =>
      exact .follow distinct.symm rightHolds leftHolds ih

theorem Differ.symm {left right : Value} (differ : heap.Differ left right) :
    heap.Differ right left := by
  by_cases containers : ∃ location location',
      left = .container location ∧ right = .container location'
  · rcases containers with ⟨left, right, rfl, rfl⟩
    rcases differ with ⟨distinct, noOutline⟩
    constructor
    · exact distinct.symm
    · rintro ⟨outline, isRight, isLeft⟩
      exact noOutline ⟨outline, isLeft, isRight⟩
  · have flipped : ¬∃ location location',
        right = .container location ∧ left = .container location' := by
      rintro ⟨location, location', isRight, isLeft⟩
      exact containers ⟨location', location, isLeft, isRight⟩
    rw [differ_of_scalar containers] at differ
    rw [differ_of_scalar flipped, ← Bool.not_eq_true]
    intro equal
    rw [Value.strictEquals_symm equal] at differ
    contradiction

/-- What lies between two values that differ differs from one of them. -/
theorem Differ.or_differ {first third : Value} (differ : heap.Differ first third)
    (second : Value) : heap.Differ first second ∨ heap.Differ second third := by
  by_cases outer : ∃ location location',
      first = .container location ∧ third = .container location'
  · rcases outer with ⟨first, third, rfl, rfl⟩
    cases second with
    | container second =>
        by_cases isFirst : first = second
        · exact .inr (isFirst ▸ differ)
        · by_cases isThird : second = third
          · exact .inl (isThird ▸ differ)
          · rcases Classical.em (∃ outline, heap.outline? first = some outline ∧
              heap.outline? second = some outline) with ⟨outline, ofFirst, ofSecond⟩ | noOutline
            · right
              refine ⟨isThird, ?_⟩
              rintro ⟨outline', ofSecond', ofThird⟩
              rw [ofSecond] at ofSecond'
              cases ofSecond'
              exact differ.2 ⟨outline, ofFirst, ofThird⟩
            · exact .inl ⟨isFirst, noOutline⟩
    | _ => exact .inl rfl
  · rw [differ_of_scalar outer] at differ
    by_cases left : ∃ location location',
        first = .container location ∧ second = .container location'
    · rcases left with ⟨first, second, rfl, rfl⟩
      cases third with
      | container third => exact absurd ⟨first, third, rfl, rfl⟩ outer
      | _ => exact .inr rfl
    · by_cases right : ∃ location location',
          second = .container location ∧ third = .container location'
      · rcases right with ⟨second, third, rfl, rfl⟩
        cases first with
        | container first => exact absurd ⟨first, third, rfl, rfl⟩ outer
        | _ => exact .inl rfl
      · rw [differ_of_scalar left, differ_of_scalar right]
        cases toSecond : first.strictEquals second with
        | false => exact .inl rfl
        | true =>
            right
            rw [← Bool.not_eq_true]
            intro toThird
            rw [Value.strictEquals_trans toSecond toThird] at differ
            contradiction

theorem equal_symm {left right : Value} (equal : heap.equal left right = true) :
    heap.equal right left = true := by
  rw [equal_iff] at equal ⊢
  intro path right' left' leads differ
  exact equal path left' right' leads.symm differ.symm

/-- Equal containers are the same one, or equal at each position. -/
theorem equal_of_at? {left right : Location} {position : Nat} {left' right' : Value}
    (equal : heap.equal (.container left) (.container right) = true) (distinct : left ≠ right)
    (leftHolds : heap.at? left position = some left')
    (rightHolds : heap.at? right position = some right') : heap.equal left' right' = true := by
  rw [equal_iff] at equal ⊢
  intro path last last' leads
  exact equal (position :: path) last last' (.follow distinct leftHolds rightHolds leads)

/-- Containers that do not differ by themselves hold something at the same positions. -/
theorem exists_at?_of_not_differ {left right : Location} {position : Nat} {left' : Value}
    (alike : ¬heap.Differ (.container left) (.container right)) (distinct : left ≠ right)
    (leftHolds : heap.at? left position = some left') :
    ∃ right', heap.at? right position = some right' := by
  rcases Classical.not_not.mp fun noOutline => alike ⟨distinct, noOutline⟩ with
    ⟨outline, ofLeft, ofRight⟩
  rcases Option.map_eq_some_iff.mp ofLeft with ⟨leftContainer, leftFound, isLeft⟩
  rcases Option.map_eq_some_iff.mp ofRight with ⟨rightContainer, rightFound, isRight⟩
  simp only [at?, leftFound, rightFound, Option.bind_some] at leftHolds ⊢
  rcases List.getElem?_eq_some_iff.mp leftHolds with ⟨inBounds, -⟩
  rw [Container.length_values_of_outline_eq (isLeft.trans isRight.symm)] at inBounds
  exact ⟨_, List.getElem?_eq_getElem inBounds⟩

theorem equal_trans {first second third : Value} (left : heap.equal first second = true)
    (right : heap.equal second third = true) : heap.equal first third = true := by
  rw [equal_iff]
  intro path last last' leads
  induction leads generalizing second with
  | here =>
      intro differ
      rcases differ.or_differ second with toSecond | toThird
      · exact equal_iff.mp left [] _ _ .here toSecond
      · exact equal_iff.mp right [] _ _ .here toThird
  | @follow first third position path first' third' last last' distinct firstHolds thirdHolds
      rest ih =>
      have alikeLeft := equal_iff.mp left [] _ _ .here
      cases second with
      | container second =>
          by_cases isFirst : first = second
          · subst isFirst
            exact equal_iff.mp right _ _ _ (.follow distinct firstHolds thirdHolds rest)
          · by_cases isThird : second = third
            · subst isThird
              exact equal_iff.mp left _ _ _ (.follow distinct firstHolds thirdHolds rest)
            · rcases exists_at?_of_not_differ alikeLeft isFirst firstHolds with
                ⟨second', secondHolds⟩
              exact ih (equal_of_at? left isFirst firstHolds secondHolds)
                (equal_of_at? right isThird secondHolds thirdHolds)
      | _ => exact absurd rfl alikeLeft

end Heap

/-- Structural equality tells two values apart exactly if positions that are followed in both at
once lead to a difference.  It is symmetric and transitive, whatever the containers hold. -/
theorem structural_equality (heap : Heap) :
    (∀ left right, heap.equal left right = true ↔
      ∀ path left' right', heap.Leads path left right left' right' →
        ¬heap.Differ left' right') ∧
      (∀ left right, heap.equal left right = heap.equal right left) ∧
        ∀ first second third, heap.equal first second = true →
          heap.equal second third = true → heap.equal first third = true := by
  refine ⟨fun _ _ => Heap.equal_iff, ?_, fun _ _ _ => Heap.equal_trans⟩
  intro left right
  rw [Bool.eq_iff_iff]
  exact ⟨Heap.equal_symm, Heap.equal_symm⟩

end Descriptor
