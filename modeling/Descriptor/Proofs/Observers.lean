import Descriptor.Proofs.Equality
import Descriptor.Proofs.Walk

/-!
# Equal values look the same

Structural equality compares numbers with `==`, which the two zeros pass, and takes a container as
equal to itself, whatever numbers it holds.  None of the conversions shows more than that: neither
the sign of a zero nor whether two values share a container can be told from a text, a rendering, a
document or a truth value.

A conversion that is a walk is followed in both values at once.  It shows the same if it treats
equal scalars alike and looks at nothing of a container but its outline and at which places nothing
stands, `Walk.plain_congr`.
-/

namespace Descriptor

/-! ## The two zeros -/

namespace Binary64

/-- What is the same of both zeros is the same of equal numbers. -/
theorem congr_of_beq {α : Type} {f : Float → α} (zeros : f 0 = f (-0)) {x y : Float}
    (equal : (x == y) = true) : f x = f y := by
  rcases (Float.beq_iff_ne_nan_and_eq.mp equal).2.2 with rfl | ⟨rfl, rfl⟩ | ⟨rfl, rfl⟩
  · rfl
  · exact zeros
  · exact zeros.symm

/-- A number is none, or equal to itself. -/
theorem isNaN_or_beq_self (x : Float) : x.isNaN = true ∨ (x == x) = true := by
  rw [Float.isNaN_eq_decide_eq_nan, decide_eq_true_eq, Float.beq_self_iff]
  exact Classical.em _

end Binary64

open Binary64

theorem Numeral.write_zeros : write 0 = write (-0) := by
  unfold write
  rw [form_zero, form_neg_zero]
  rfl

theorem Json.ofNumber_zeros : ofNumber 0 = ofNumber (-0) := by
  have whole : toInt? 0 = some 0 ∧ toInt? (-0) = some 0 := by decide +kernel
  rw [ofNumber_of_finite form_zero, ofNumber_of_finite form_neg_zero, settledNumber, settledNumber,
    whole.1, whole.2]
  rfl

theorem Value.toBool_zeros : toBool (.number 0) = toBool (.number (-0)) := by
  decide +kernel

/-! ## Equal values, from outside -/

/-- Whether a value is `null` or `undefined`, which have no text as elements. -/
def Value.isAbsent : Value → Bool
  | .null => true
  | .undefined => true
  | _ => false

/-- A container is strictly equal to containers only. -/
theorem Value.scalars_of_strictEquals {left right : Value}
    (containers : ¬∃ location location', left = .container location ∧ right = .container location')
    (equal : left.strictEquals right = true) :
    (∀ location, left ≠ .container location) ∧ ∀ location, right ≠ .container location := by
  cases left <;> cases right <;> simp_all [strictEquals]

namespace Heap

variable {heap : Heap}

theorem strictEquals_of_equal {left right : Value}
    (containers : ¬∃ location location', left = .container location ∧ right = .container location')
    (equal : heap.equal left right = true) : left.strictEquals right = true := by
  rwa [Heap.equal, equalWithin_of_scalar containers] at equal

/-- Two equal containers have one outline, and hold equal values at each position. -/
theorem exists_containers_of_equal {left right : Location} (distinct : left ≠ right)
    (equal : heap.equal (.container left) (.container right) = true) :
    ∃ lefts rights, heap.get? left = some lefts ∧ heap.get? right = some rights ∧
      lefts.outline = rights.outline ∧
        List.Forall₂ (fun left right => heap.equal left right = true) lefts.values
          rights.values := by
  have alike := equal_iff.mp equal [] _ _ .here
  rcases Classical.not_not.mp fun noOutline => alike ⟨distinct, noOutline⟩ with
    ⟨outline, ofLeft, ofRight⟩
  rcases Option.map_eq_some_iff.mp ofLeft with ⟨lefts, leftFound, rfl⟩
  rcases Option.map_eq_some_iff.mp ofRight with ⟨rights, rightFound, same⟩
  refine ⟨lefts, rights, leftFound, rightFound, same.symm, ?_⟩
  rw [List.forall₂_iff_get]
  refine ⟨Container.length_values_of_outline_eq same.symm, fun position inLeft inRight => ?_⟩
  refine @equal_of_at? heap left right position _ _ equal distinct ?_ ?_
  · simp [at?, leftFound, List.getElem?_eq_getElem inLeft]
  · simp [at?, rightFound, List.getElem?_eq_getElem inRight]

theorem isAbsent_eq_of_equal {left right : Value} (equal : heap.equal left right = true) :
    left.isAbsent = right.isAbsent := by
  by_cases containers : ∃ location location',
      left = .container location ∧ right = .container location'
  · rcases containers with ⟨left, right, rfl, rfl⟩
    rfl
  · have equal := strictEquals_of_equal containers equal
    cases left <;> cases right <;> first | rfl | contradiction

end Heap

/-! ## Walks that show no more -/

namespace Walk

variable {α : Type} {heap : Heap}

/-- A walk treats equal scalars alike, and looks at nothing of a container but its outline and
which of its values are `null` or `undefined`. -/
structure Respects (walk : Walk α) : Prop where
  scalar : ∀ {left right : Value}, left.strictEquals right = true →
    walk.scalar left = walk.scalar right
  whole : ∀ {left right : Container}, left.outline = right.outline →
    walk.whole? left = walk.whole? right
  combine : ∀ {left right : Container}, left.outline = right.outline →
    left.values.map Value.isAbsent = right.values.map Value.isAbsent →
      walk.combine left = walk.combine right

theorem plain_of_scalar (walk : Walk α) {value : Value}
    (scalar : ∀ location, value ≠ .container location) (calls : Nat) :
    walk.plain heap (calls + 1) value = some (walk.scalar value) := by
  cases value with
  | container location => exact absurd rfl (scalar location)
  | _ => rfl

theorem mapM_congr_of_forall₂ {β γ : Type} {Related : β → β → Prop} {f : β → Option γ}
    (congr : ∀ left right, Related left right → f left = f right) {lefts rights : List β}
    (related : List.Forall₂ Related lefts rights) : lefts.mapM f = rights.mapM f := by
  induction related with
  | nil => rfl
  | cons first _ ih => simp [congr _ _ first, ih]

/-- Such a walk makes the same of equal values, as long as neither needs more calls. -/
theorem plain_congr {walk : Walk α} (respects : walk.Respects) {left right : Value}
    (equal : heap.equal left right = true) (calls : Nat) :
    walk.plain heap calls left = walk.plain heap calls right := by
  induction calls generalizing left right with
  | zero => rfl
  | succ calls ih =>
      by_cases containers : ∃ location location',
          left = .container location ∧ right = .container location'
      · rcases containers with ⟨left, right, rfl, rfl⟩
        by_cases same : left = right
        · rw [same]
        · rcases Heap.exists_containers_of_equal same equal with
            ⟨lefts, rights, leftFound, rightFound, outlines, values⟩
          have absent : lefts.values.map Value.isAbsent = rights.values.map Value.isAbsent := by
            rw [← List.forall₂_eq_eq_eq, List.forall₂_map_left_iff, List.forall₂_map_right_iff]
            exact values.imp fun _ _ => Heap.isAbsent_eq_of_equal
          have visited : lefts.values.mapM (walk.plain heap calls) =
              rights.values.mapM (walk.plain heap calls) :=
            mapM_congr_of_forall₂ (fun _ _ equal => ih equal) values
          rw [plain, plain, leftFound, rightFound]
          simp only [respects.whole outlines, respects.combine outlines absent, visited]
      · have equal := Heap.strictEquals_of_equal containers equal
        rcases Value.scalars_of_strictEquals containers equal with ⟨ofLeft, ofRight⟩
        rw [plain_of_scalar walk ofLeft, plain_of_scalar walk ofRight, respects.scalar equal]

/-- What a walk makes of two equal values is the same if no container reaches itself. -/
theorem Gives.eq_of_equal {walk : Walk α} {result : List Location → Value → α}
    (gives : walk.Gives heap result) (respects : walk.Respects) {left right : Value}
    (leftAcyclic : heap.Acyclic left) (rightAcyclic : heap.Acyclic right)
    (equal : heap.equal left right = true) : result [] left = result [] right := by
  have enough := Nat.lt_succ_self (heap.closed [])
  have ofLeft := plain_eq_some gives enough leftAcyclic fun _ member => nomatch member
  have ofRight := plain_eq_some gives enough rightAcyclic fun _ member => nomatch member
  rw [plain_congr respects equal, ofRight] at ofLeft
  exact (Option.some.inj ofLeft).symm

/-! ## The conversions show no more -/

theorem textual_respects : textual.Respects where
  scalar {left right} equal := by
    cases left <;> cases right <;> simp_all [Value.strictEquals, textual]
    exact congr_of_beq Numeral.write_zeros equal
  whole {left right} same := by
    cases left <;> cases right <;> first | rfl | contradiction
  combine {left right} _ absent := by
    have written : ∀ (container : Container) (texts : List String),
        textual.combine container texts = ",".intercalate
          ((container.values.map Value.isAbsent).zipWith (fun absent text =>
            if absent then "" else text) texts) := by
      intro container texts
      rw [List.zipWith_map_left]
      simp only [textual]
      congr
      funext element text
      cases element <;> rfl
    funext texts
    rw [written, written, absent]

theorem rendering_respects : rendering.Respects where
  scalar {left right} equal := by
    have asText := textual_respects.scalar equal
    cases left <;> cases right <;> simp_all [Value.strictEquals, rendering]
  whole _ := rfl
  combine {left right} same _ := by
    cases left <;> cases right <;> simp_all [rendering, Container.outline]

theorem documenting_respects : documenting.Respects where
  scalar {left right} equal := by
    cases left <;> cases right <;> simp_all [Value.strictEquals, documenting]
    exact congr_of_beq Json.ofNumber_zeros equal
  whole _ := rfl
  combine {left right} same _ := by
    cases left <;> cases right <;> simp_all [documenting, Container.outline]

end Walk

/-! ## Truth values and numbers -/

namespace Heap

variable {heap : Heap} {left right : Value}

theorem toBool_eq_of_equal (equal : heap.equal left right = true) : left.toBool = right.toBool := by
  by_cases containers : ∃ location location',
      left = .container location ∧ right = .container location'
  · rcases containers with ⟨left, right, rfl, rfl⟩
    rfl
  · have equal := strictEquals_of_equal containers equal
    cases left <;> cases right <;> simp_all [Value.strictEquals]
    exact congr_of_beq (f := fun x => Value.toBool (.number x)) Value.toBool_zeros equal

/-- Values with the same text count as the same number, or as equal ones if they are numbers. -/
theorem toNumber_of_equal (equal : heap.equal left right = true)
    (texts : heap.text left = heap.text right) :
    left.toNumber heap = right.toNumber heap ∨
      (left.toNumber heap == right.toNumber heap) = true := by
  by_cases containers : ∃ location location',
      left = .container location ∧ right = .container location'
  · rcases containers with ⟨left, right, rfl, rfl⟩
    exact .inl (congrArg Numeral.read texts)
  · have equal := strictEquals_of_equal containers equal
    cases left <;> cases right <;> simp_all [Value.strictEquals, Value.toNumber]

end Heap

/-- Equal values from which no container reaches itself have the same text, rendering, document and
truth value.  They count as equal numbers, or neither as a number. -/
theorem equal_values_look_same {heap : Heap} {left right : Value}
    (leftAcyclic : heap.Acyclic left) (rightAcyclic : heap.Acyclic right)
    (equal : heap.equal left right = true) :
    heap.text left = heap.text right ∧ heap.render left = heap.render right ∧
      heap.json left = heap.json right ∧ left.toBool = right.toBool ∧
        ((left.toNumber heap).isNaN = true ∧ (right.toNumber heap).isNaN = true ∨
          (left.toNumber heap == right.toNumber heap) = true) := by
  have texts : heap.text left = heap.text right :=
    (Walk.textual_gives heap).eq_of_equal Walk.textual_respects leftAcyclic rightAcyclic equal
  refine ⟨texts, ?_, ?_, Heap.toBool_eq_of_equal equal, ?_⟩
  · exact (Walk.rendering_gives heap).eq_of_equal Walk.rendering_respects leftAcyclic rightAcyclic
      equal
  · exact (Walk.documenting_gives heap).eq_of_equal Walk.documenting_respects leftAcyclic
      rightAcyclic equal
  · rcases Heap.toNumber_of_equal equal texts with same | equal
    · rw [same]
      exact (isNaN_or_beq_self _).imp (fun none => ⟨none, none⟩) id
    · exact .inr equal

/-- Two arrays hold a zero each, of both signs, and the same array, which no copy of it equals. -/
theorem equal_values_look_same_zeros :
    let heap : Heap :=
      ⟨#[.array [.number 0, .container 2], .array [.number (-0), .container 2],
        .array [.number Binary64.nan]]⟩
    let left : Value := .container 0
    let right : Value := .container 1
    heap.Acyclic left ∧ heap.Acyclic right ∧ heap.equal left right = true ∧
      heap.text left = heap.text right ∧ heap.render left = heap.render right ∧
        heap.json left = heap.json right ∧ left.toBool = right.toBool ∧
          ((left.toNumber heap).isNaN = true ∧ (right.toNumber heap).isNaN = true ∨
            (left.toNumber heap == right.toNumber heap) = true) := by
  intro heap left right
  have leftAcyclic : heap.Acyclic left :=
    (Walk.exists_plain_iff (Walk.rendering_gives heap) fun _ => rfl).mp ⟨3, _, rfl⟩
  have rightAcyclic : heap.Acyclic right :=
    (Walk.exists_plain_iff (Walk.rendering_gives heap) fun _ => rfl).mp ⟨3, _, rfl⟩
  have zeros : ((0 : Float) == -0) = true := by decide +kernel
  have equal : heap.equal left right = true := by
    simp [heap, left, right, Heap.equal, Heap.equalWithin, Heap.get?, Value.strictEquals, zeros]
  exact ⟨leftAcyclic, rightAcyclic, equal,
    equal_values_look_same leftAcyclic rightAcyclic equal⟩

end Descriptor
