import Descriptor.Proofs.Cursor.Following

/-!
# Expressions read with a cursor

Every rule for expressions follows its counterpart in the grammar, where as many levels are left
as the grammar has room for.
-/

namespace Descriptor.Cursor

open Grammar

variable {site : Site} {room : Nat} {rules : Rules} {inner : Operands}

/-- The rules for what lies one level deeper follow those of the grammar. -/
structure Rules.FollowOperands (rules : Rules) (site : Site) (room : Nat) (inner : Operands) :
    Prop where
  expression : Follows site room rules.expression inner.expression.step
  unary : Follows site room rules.unary inner.unary.step

section Rules

variable (follow : rules.FollowOperands site room inner)
include follow

/-! ## Brackets and single tokens -/

theorem parenthesized_follows :
    Follows site room (parenthesized rules) (Grammar.parenthesized inner) := by
  apply follow.expression.bind
  intro expression
  apply (FollowsAs.consume (by decide) _).bind
  intro closing
  exact .pure rfl

theorem arrayElement_follows :
    Follows site room (arrayElement rules) (Grammar.arrayElement inner).step := by
  apply follow.expression.bind
  intro element
  apply FollowsAs.skipSeparators.bind
  intro _
  apply (FollowsAs.accept (by decide)).bind
  intro accepted
  cases accepted with
  | none => exact .pure rfl
  | some comma =>
      apply FollowsAs.skipSeparators.bind
      intro _
      exact .pure rfl

theorem array_follows : Follows site room (array rules) (Grammar.array inner) := by
  apply FollowsAs.skipSeparators.bind
  intro _
  apply (FollowsAs.items (by decide) (arrayElement_follows follow)).bind
  intro elements
  apply (FollowsAs.consume (by decide) _).bind
  intro closing
  exact .pure rfl

theorem objectProperty_follows :
    Follows site room (objectProperty rules) (Grammar.objectProperty inner).step := by
  apply (FollowsAs.consume (by decide) _).bind
  intro name
  apply (FollowsAs.consume (by decide) _).bind
  intro colon
  apply follow.expression.bind
  intro value
  apply FollowsAs.skipSeparators.bind
  intro _
  apply (FollowsAs.check (by decide)).bind
  intro next
  cases next.any (·.kind == .sign .rightBrace) with
  | true => exact .pure rfl
  | false =>
      apply (FollowsAs.consume (by decide) _).bind
      intro comma
      apply FollowsAs.skipSeparators.bind
      intro _
      exact .pure rfl

theorem object_follows : Follows site room (object rules) (Grammar.object inner) := by
  apply (FollowsAs.consume (by decide) _).bind
  intro brace
  apply FollowsAs.skipSeparators.bind
  intro _
  apply (FollowsAs.items (by decide) (objectProperty_follows follow)).bind
  intro properties
  apply (FollowsAs.consume (by decide) _).bind
  intro closing
  exact .pure rfl

omit follow in
theorem leaf_follows : Follows site room leaf
    (Rule.byToken (fun token => (Expr.leaf? token).map pure)
      (Rule.fail .expectedExpression)).step := by
  apply FollowsAs.byToken
  · intro token
    cases Expr.leaf? token with
    | none => exact .none
    | some expression => exact .some (.pure rfl)
  · intro token isEnd
    rw [Expr.leaf?, beq_iff_eq.mp isEnd]
    rfl
  · exact .fail _

/-- What is no bracket is left to the rule for single tokens. -/
theorem primary_follows : Follows site room (primary rules) (Grammar.primary inner).step := by
  apply FollowsAs.byKind (by decide) ?selects (parenthesized_follows follow)
  · apply FollowsAs.byKind (by decide) (fun token => rfl) (array_follows follow)
    exact FollowsAs.byKind (by decide) (fun token => rfl) (object_follows follow) leaf_follows
  · intro token
    split <;> simp_all

/-! ## Operators -/

theorem access?_follows (token : Token) :
    Option.Rel (fun next next' => ∀ object : Expr, Follows site room (next object) (next' object))
      (access? rules token) (Grammar.access? inner token) := by
  by_cases isDot : token.kind = .sign .dot
  · rw [access?, Grammar.access?, isDot]
    refine .some fun object => ?_
    apply (FollowsAs.consume (by decide) _).bind
    intro name
    exact .pure rfl
  by_cases isBracket : token.kind = .sign .leftBracket
  · rw [access?, Grammar.access?, isBracket]
    refine .some fun object => ?_
    apply follow.expression.bind
    intro index
    apply (FollowsAs.consume (by decide) _).bind
    intro closing
    exact .pure rfl
  have unselected : access? rules token = none := by
    unfold access?
    split
    · contradiction
    · contradiction
    · rfl
  have unselected' : Grammar.access? inner token = none := by
    unfold Grammar.access?
    split
    · contradiction
    · contradiction
    · rfl
  rw [unselected, unselected']
  exact .none

theorem accesses_follows : Follows site room (accesses rules) (Grammar.accesses inner).step := by
  apply (primary_follows follow).bind
  intro object
  refine .extend (access?_follows follow) (fun token isEnd => ?_) object
  rw [Grammar.access?, beq_iff_eq.mp isEnd]

theorem unary_follows : Follows site room (unary rules) (Grammar.unary inner).step := by
  apply FollowsAs.byToken
  · intro token
    cases UnaryOperator.ofKind? token.kind with
    | none => exact .none
    | some operator =>
        refine .some ?_
        apply follow.unary.bind
        intro right
        exact .pure rfl
  · intro token isEnd
    rw [beq_iff_eq.mp isEnd]
    rfl
  · exact accesses_follows follow

omit follow in
/-- The operators that a level lists are those that belong to it. -/
theorem mem_operators_iff {operator : BinaryOperator} {level : Level} :
    operator ∈ operators level ↔ operator.level = level := by
  cases operator <;> cases level <;> decide

omit follow in
theorem rightOperand?_follows {operand : Machine Expr} {tighter : Rule Expr} (level : Level)
    (follows : Follows site room operand tighter.step) (token : Token) :
    Option.Rel (fun next next' => ∀ left : Expr, Follows site room (next left) (next' left))
      (rightOperand? (operators level) operand token)
      (Grammar.rightOperand? level tighter token) := by
  have accepted : (fun operator : BinaryOperator => decide (operator ∈ operators level)) =
      (·.level == level) := by
    funext operator
    rw [decide_eq_decide.mpr mem_operators_iff]
    rfl
  unfold rightOperand? Grammar.rightOperand?
  rw [accepted]
  cases (BinaryOperator.ofKind? token.kind).filter (·.level == level) with
  | none => exact .none
  | some operator =>
      refine .some fun left => ?_
      apply follows.bind
      intro right
      exact .pure rfl

theorem binary_follows (levels : List Level) :
    Follows site room (binary rules levels) (Grammar.binary inner levels).step := by
  induction levels with
  | nil => exact unary_follows follow
  | cons level tighter ih =>
      apply ih.bind
      intro left
      refine .extend (rightOperand?_follows level ih) (fun token isEnd => ?_) left
      rw [Grammar.rightOperand?, beq_iff_eq.mp isEnd]
      rfl

/-- The error of an assignment to what is no place is found at the sign, which was read some
tokens ago. -/
theorem assignment_follows :
    Follows site room (assignment rules) (Grammar.assignment inner).step := by
  apply (binary_follows follow Level.all).bind
  intro target registers unread level inside
  rcases Site.kind_cases (.sign .equal) unread with ⟨equals, rest, rfl, isEqual⟩ | other
  · have same := follow.expression level ((List.suffix_cons equals rest).trans inside)
    simp only [id, Machine.run_bind, run_check inside _ (.sign .equal) nofun, List.head?_cons,
      Option.any_some, isEqual, beq_self_eq_true, if_true, run_advance inside, Step.run_bind,
      Step.run_accept?_of_kind isEqual]
    generalize inner.expression.step.run rest = result at same ⊢
    generalize Machine.run _ _ _ = outcome at same ⊢
    cases same with
    | @ok value left forward =>
        have forward := forward.trans (List.suffix_cons equals rest)
        simp only [id]
        cases assignment? target value with
        | some expression => exact .ok forward
        | none => exact .failAt _ forward
    | error isAt ahead forward =>
        exact .error isAt (ahead.trans (List.suffix_cons equals rest)) forward
  · simp only [id, Machine.run_bind, run_check inside _ (.sign .equal) nofun,
      Site.any_head?_of_ne other, Bool.false_eq_true, if_false, Step.run_bind,
      Step.run_accept?_of_ne other]
    exact .ok (List.suffix_refl unread)

end Rules

/-! ## Levels -/

/-- The rules of the machine follow those of the grammar, as long as they may call each other more
often than levels are left. -/
theorem rulesWithin_followOperands {calls : Nat} (enough : room < calls) :
    (rulesWithin calls).FollowOperands site room (operands room) := by
  induction room generalizing calls with
  | zero =>
      obtain ⟨calls, rfl⟩ := Nat.exists_eq_add_of_lt enough
      exact ⟨.nested_zero _, .nested_zero _⟩
  | succ room ih =>
      obtain ⟨calls, rfl⟩ := Nat.exists_eq_add_of_lt enough
      have follow := @ih (room + 1 + calls) (by omega)
      exact ⟨.nested (assignment_follows follow), .nested (unary_follows follow)⟩

end Descriptor.Cursor
