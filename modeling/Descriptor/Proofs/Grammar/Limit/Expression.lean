import Descriptor.Proofs.Grammar.View.Step

/-!
# Expressions and the levels they open

A step with few levels is compared with one that has more of them, or all it takes.  The first one
reads what the second one does, as long as it does not run out of levels.  A level is opened behind
a token of its own, so to run out of many levels takes many tokens: on fewer tokens than there are
levels, both steps do the same.
-/

namespace Descriptor.Grammar

variable {α β : Type}

/-- What comes of a step is that no level was left. -/
def Result.OutOfLevels (result : Result α) : Prop :=
  ∃ failure, result = .error failure ∧ failure.error.fault = .tooDeeplyNested

/-- The first step reads what the second one does, unless it runs out of levels, which takes at
least `reach` tokens. -/
def Step.Reaches (reach : Nat) (limited free : Step α) : Prop :=
  ∀ tokens, limited.run tokens = free.run tokens ∨
    reach ≤ tokens.length ∧ (limited.run tokens).OutOfLevels

/-- What is selected on one side has a counterpart on the other. -/
theorem exists_of_rel_some {r : α → β → Prop} {selected : Option α} {b : β}
    (related : Option.Rel r selected (some b)) : ∃ a, selected = some a ∧ r a b := by
  cases related with
  | some holds => exact ⟨_, rfl, holds⟩

theorem eq_none_of_rel_none {r : α → β → Prop} {selected : Option α}
    (related : Option.Rel r selected none) : selected = none := by
  cases related
  rfl

namespace Step.Reaches

variable {reach less : Nat}

theorem refl (reach : Nat) (step : Step α) : Reaches reach step step :=
  fun _ => .inl rfl

/-- Without levels nothing is read, whatever there is to be read. -/
theorem ofFail (free : Step α) : Reaches 0 (Rule.fail .tooDeeplyNested).step free :=
  fun _ => .inr ⟨Nat.zero_le _, _, rfl, rfl⟩

theorem mono {limited free : Step α} (reaches : Reaches reach limited free) (le : less ≤ reach) :
    Reaches less limited free :=
  fun tokens => (reaches tokens).imp_right fun out => ⟨le.trans out.1, out.2⟩

/-- On few tokens both steps do the same. -/
theorem run_eq {limited free : Step α} (reaches : Reaches reach limited free)
    {tokens : List Token} (few : tokens.length < reach) : limited.run tokens = free.run tokens :=
  (reaches tokens).resolve_right fun out => absurd out.1 (Nat.not_le.mpr few)

/-! ## One step after another -/

/-- The second step may reach less far, by the tokens that the first one reads. -/
theorem bind_of_le {limited free : Step α} {next next' : α → Step β}
    (first : Reaches reach limited free) (second : ∀ a, Reaches less (next a) (next' a))
    (fewer : ∀ {tokens a rest}, free.run tokens = .ok (a, rest) →
      less ≤ rest.length → reach ≤ tokens.length) :
    Reaches reach (limited >>= next) (free >>= next') := by
  intro tokens
  rw [Step.run_bind, Step.run_bind]
  rcases first tokens with same | ⟨long, failure, failed, isLimit⟩
  · rw [same]
    cases ran : free.run tokens with
    | error failure => exact .inl rfl
    | ok read =>
        rcases read with ⟨a, rest⟩
        exact (second a rest).imp_right fun out => ⟨fewer ran out.1, out.2⟩
  · refine .inr ⟨long, failure, ?_, isLimit⟩
    rw [failed]

theorem bind {limited free : Step α} {next next' : α → Step β}
    (first : Reaches reach limited free) (second : ∀ a, Reaches reach (next a) (next' a)) :
    Reaches reach (limited >>= next) (free >>= next') :=
  first.bind_of_le second fun ran long => long.trans (free.suffix_of_ok ran).length_le

/-- A rule reads a token at least. -/
theorem andThen {limited free : Rule α} {next next' : α → Step β}
    (first : Reaches (reach + 1) limited.step free.step)
    (second : ∀ a, Reaches reach (next a) (next' a)) :
    Reaches (reach + 1) (limited.andThen next).step (free.andThen next').step :=
  first.bind_of_le second fun ran long => Nat.lt_of_le_of_lt long (free.consumes ran)

/-- A selected token is one token more. -/
theorem byToken {select select' : Token → Option (Step α)} {otherwise otherwise' : Rule α}
    (selects : ∀ token, Option.Rel (Reaches reach) (select token) (select' token))
    (others : Reaches (reach + 1) otherwise.step otherwise'.step) :
    Reaches (reach + 1) (Rule.byToken select otherwise).step
      (Rule.byToken select' otherwise').step := by
  intro tokens
  cases tokens with
  | nil => exact others []
  | cons token rest =>
      have selected := selects token
      cases there : select' token with
      | none =>
          rw [there] at selected
          rw [Rule.run_byToken_of_none (eq_none_of_rel_none selected),
            Rule.run_byToken_of_none there]
          exact others (token :: rest)
      | some next' =>
          rw [there] at selected
          rcases exists_of_rel_some selected with ⟨next, here, reaches⟩
          rw [Rule.run_byToken_of_some here, Rule.run_byToken_of_some there]
          exact (reaches rest).imp_right fun out => ⟨Nat.succ_le_succ out.1, out.2⟩

/-! ## Repetition -/

theorem extend {select select' : Token → Option (α → Step α)}
    (selects : ∀ token, Option.Rel (fun next next' => ∀ a, Reaches reach (next a) (next' a))
      (select token) (select' token)) (a : α) :
    Reaches reach (Step.extend select a) (Step.extend select' a) := by
  intro tokens
  change Step.extendFrom select a tokens = Step.extendFrom select' a tokens ∨
    reach ≤ tokens.length ∧ (Step.extendFrom select a tokens).OutOfLevels
  fun_induction Step.extendFrom select' a tokens with
  | case1 a => exact .inl (Step.extendFrom_of_unselected (by simp))
  | case2 a token rest there =>
      have selected := selects token
      rw [there] at selected
      refine .inl (Step.extendFrom_of_unselected ?_)
      rintro _ ⟨⟩
      exact eq_none_of_rel_none selected
  | case3 a token rest next' there b left ran ih =>
      have selected := selects token
      rw [there] at selected
      rcases exists_of_rel_some selected with ⟨next, here, reaches⟩
      have shorter := ((next' a).suffix_of_ok ran).length_le
      rw [List.length_cons]
      rcases reaches a rest with same | ⟨long, failure, failed, isLimit⟩
      · rw [Step.extendFrom_of_run here (same.trans ran)]
        exact ih.imp_right fun out => ⟨by omega, out.2⟩
      · rw [Step.extendFrom_of_failure here failed]
        exact .inr ⟨Nat.le_succ_of_le long, failure, rfl, isLimit⟩
  | case4 a token rest next' there failure failed =>
      have selected := selects token
      rw [there] at selected
      rcases exists_of_rel_some selected with ⟨next, here, reaches⟩
      rw [List.length_cons]
      rcases reaches a rest with same | ⟨long, failure, failed', isLimit⟩
      · exact .inl (Step.extendFrom_of_failure here (same.trans failed))
      · rw [Step.extendFrom_of_failure here failed']
        exact .inr ⟨Nat.le_succ_of_le long, failure, rfl, isLimit⟩

theorem items {item item' : Rule (α × Bool)} (closes : Token → Bool)
    (reaches : Reaches reach item.step item'.step) :
    Reaches reach (Step.items item closes) (Step.items item' closes) := by
  intro tokens
  change Step.itemsFrom item closes tokens = Step.itemsFrom item' closes tokens ∨
    reach ≤ tokens.length ∧ (Step.itemsFrom item closes tokens).OutOfLevels
  -- An item that runs out of levels ends the list, wherever the other side goes on from there.
  have tried {token : Token} {rest : List Token} (opens : closes token = false) :
      item.step.run (token :: rest) = item'.step.run (token :: rest) ∨
        reach ≤ (token :: rest).length ∧
          (Step.itemsFrom item closes (token :: rest)).OutOfLevels := by
    rcases reaches (token :: rest) with same | ⟨long, failure, failed, isLimit⟩
    · exact .inl same
    · exact .inr ⟨long, failure, Step.itemsFrom_of_failure opens failed, isLimit⟩
  fun_induction Step.itemsFrom item' closes tokens with
  | case1 => exact .inl (by rw [Step.itemsFrom])
  | case2 token rest closed => exact .inl (Step.itemsFrom_of_closes ⟨token, rfl, closed⟩)
  | case3 token rest opens failure failed =>
      have opens := Bool.eq_false_iff.mpr opens
      refine (tried opens).imp_left fun same => ?_
      exact Step.itemsFrom_of_failure opens (same.trans failed)
  | case4 token rest opens a left ran =>
      have opens := Bool.eq_false_iff.mpr opens
      refine (tried opens).imp_left fun same => ?_
      exact Step.itemsFrom_of_run opens (same.trans ran) (fun _ => ⟨rfl, rfl⟩)
        (absurd · Bool.false_ne_true)
  | case5 token rest opens a left ran list last again ih =>
      have opens := Bool.eq_false_iff.mpr opens
      have shorter := (item'.step.suffix_of_ok ran).length_le
      rcases tried opens with same | out
      · rcases ih with sameItems | ⟨long, failure, failed, isLimit⟩
        · rw [again] at sameItems
          exact .inl (Step.itemsFrom_of_run opens (same.trans ran)
            (absurd · Bool.true_eq_false.mp) fun _ => sameItems)
        · exact .inr ⟨long.trans shorter, failure,
            Step.itemsFrom_of_later_failure opens (same.trans ran) failed, isLimit⟩
      · exact .inr out
  | case6 token rest opens a left ran failure failed ih =>
      have opens := Bool.eq_false_iff.mpr opens
      have shorter := (item'.step.suffix_of_ok ran).length_le
      rcases tried opens with same | out
      · rcases ih with sameItems | ⟨long, failure, failed', isLimit⟩
        · rw [failed] at sameItems
          exact .inl (Step.itemsFrom_of_later_failure opens (same.trans ran) sameItems)
        · exact .inr ⟨long.trans shorter, failure,
            Step.itemsFrom_of_later_failure opens (same.trans ran) failed', isLimit⟩
      · exact .inr out

end Step.Reaches

/-- The rules for what lies one level deeper read the same, unless they run out of levels. -/
structure Operands.Reaches (reach : Nat) (limited free : Operands) : Prop where
  expression : Step.Reaches reach limited.expression.step free.expression.step
  unary : Step.Reaches reach limited.unary.step free.unary.step

section Rules

variable {reach : Nat} {inner inner' : Operands} (reaches : Operands.Reaches reach inner inner')
include reaches

/-! ## Brackets and single tokens -/

theorem parenthesized_reaches :
    (parenthesized inner).Reaches reach (parenthesized inner') := by
  apply reaches.expression.bind
  intro expression
  exact .refl _ _

theorem arrayElement_reaches :
    (arrayElement inner).step.Reaches reach (arrayElement inner').step := by
  apply reaches.expression.bind
  intro element
  exact .refl _ _

theorem array_reaches : (array inner).Reaches reach (array inner') := by
  apply (Step.Reaches.refl _ _).bind
  intro _
  apply (Step.Reaches.items _ (arrayElement_reaches reaches)).bind
  intro elements
  exact .refl _ _

theorem objectProperty_reaches :
    (objectProperty inner).step.Reaches reach (objectProperty inner').step := by
  apply (Step.Reaches.refl _ _).bind
  intro name
  apply (Step.Reaches.refl _ _).bind
  intro colon
  apply reaches.expression.bind
  intro value
  exact .refl _ _

theorem object_reaches : (object inner).Reaches reach (object inner') := by
  apply (Step.Reaches.refl _ _).bind
  intro brace
  apply (Step.Reaches.refl _ _).bind
  intro _
  apply (Step.Reaches.items _ (objectProperty_reaches reaches)).bind
  intro properties
  exact .refl _ _

theorem primary_reaches : (primary inner).step.Reaches (reach + 1) (primary inner').step := by
  apply Step.Reaches.byToken
  · intro token
    split
    · exact .some (parenthesized_reaches reaches)
    · exact .some (array_reaches reaches)
    · exact .some (object_reaches reaches)
    · cases Expr.leaf? token with
      | none => exact .none
      | some leaf => exact .some (.refl _ _)
  · exact .refl _ _

/-! ## Operators -/

theorem access?_reaches (token : Token) :
    Option.Rel (fun next next' => ∀ object : Expr, (next object).Reaches reach (next' object))
      (access? inner token) (access? inner' token) := by
  unfold access?
  split
  · exact .some fun object => .refl _ _
  · refine .some fun object => ?_
    apply reaches.expression.bind
    intro index
    exact .refl _ _
  · exact .none

theorem accesses_reaches : (accesses inner).step.Reaches (reach + 1) (accesses inner').step :=
  (primary_reaches reaches).andThen (.extend (access?_reaches reaches))

theorem unary_reaches : (unary inner).step.Reaches (reach + 1) (unary inner').step := by
  apply Step.Reaches.byToken
  · intro token
    cases UnaryOperator.ofKind? token.kind with
    | none => exact .none
    | some operator =>
        refine .some ?_
        apply reaches.unary.bind
        intro right
        exact .refl _ _
  · exact accesses_reaches reaches

omit reaches in
theorem rightOperand?_reaches {tighter tighter' : Rule Expr} (level : Level)
    (reaches : tighter.step.Reaches reach tighter'.step) (token : Token) :
    Option.Rel (fun next next' => ∀ left : Expr, (next left).Reaches reach (next' left))
      (rightOperand? level tighter token) (rightOperand? level tighter' token) := by
  unfold rightOperand?
  cases (BinaryOperator.ofKind? token.kind).filter (·.level == level) with
  | none => exact .none
  | some operator =>
      refine .some fun left => ?_
      apply reaches.bind
      intro right
      exact .refl _ _

theorem binary_reaches (levels : List Level) :
    (binary inner levels).step.Reaches (reach + 1) (binary inner' levels).step := by
  induction levels with
  | nil => exact unary_reaches reaches
  | cons level tighter ih =>
      exact ih.bind (.extend (rightOperand?_reaches level ih))

theorem assignment_reaches :
    (assignment inner).step.Reaches (reach + 1) (assignment inner').step := by
  apply (binary_reaches reaches Level.all).andThen
  intro target
  apply (Step.Reaches.refl _ _).bind
  intro accepted
  cases accepted with
  | none => exact .refl _ _
  | some equals =>
      apply reaches.expression.bind
      intro value
      exact .refl _ _

end Rules

/-- With more levels more is read, and what can be read with few levels is read the same. -/
theorem operands_reaches_of_le {room more : Nat} (le : room ≤ more) :
    (operands room).Reaches room (operands more) := by
  induction room generalizing more with
  | zero => exact ⟨.ofFail _, .ofFail _⟩
  | succ room ih =>
      rcases Nat.exists_eq_add_of_le' le with ⟨others, rfl⟩
      have inner := ih (Nat.le_add_left room others)
      exact ⟨assignment_reaches inner, unary_reaches inner⟩

end Descriptor.Grammar
