import Descriptor.Proofs.Grammar.Limit.Expression
import Descriptor.Proofs.Grammar.View.Statement

/-!
# Statements and the levels they open

A course drops declarations that fail and goes on behind them, so one that runs out of levels may
end anywhere else than one with more of them.  What both have in common are the errors in front of
the first one for want of levels.
-/

namespace Descriptor.Grammar

variable {α β : Type}

/-- All errors of a course, in their order: those of the declarations that it drops, and its own. -/
def allErrors : List ParseError × Result α → List ParseError
  | (errors, .ok _) => errors
  | (errors, .error failure) => errors ++ [failure.error]

/-- The errors are among the others, in their order, up to one that no level was left. -/
def RunsOut (errors others : List ParseError) : Prop :=
  ∃ common error, common ++ [error] <+: errors ∧ error.fault = .tooDeeplyNested ∧
    common <+: others

namespace RunsOut

variable {errors others : List ParseError}

theorem append_left (before : List ParseError) (out : RunsOut errors others) :
    RunsOut (before ++ errors) (before ++ others) := by
  rcases out with ⟨common, error, isFirst, isLimit, inOthers⟩
  refine ⟨before ++ common, error, ?_, isLimit, (List.prefix_append_right_inj before).mpr inOthers⟩
  rw [List.append_assoc]
  exact (List.prefix_append_right_inj before).mpr isFirst

/-- What comes later does not count. -/
theorem of_prefix {moreErrors moreOthers : List ParseError} (out : RunsOut errors others)
    (longer : errors <+: moreErrors) (longerOthers : others <+: moreOthers) :
    RunsOut moreErrors moreOthers := by
  rcases out with ⟨common, error, isFirst, isLimit, inOthers⟩
  exact ⟨common, error, isFirst.trans longer, isLimit, inOthers.trans longerOthers⟩

end RunsOut

/-! ## Courses -/

/-- The first course reads what the second one does, unless it runs out of levels, which takes at
least `reach` tokens. -/
def Course.Reaches (reach : Nat) (limited free : Course α) : Prop :=
  ∀ tokens, limited.run tokens = free.run tokens ∨
    reach ≤ tokens.length ∧
      RunsOut (allErrors (limited.run tokens)) (allErrors (free.run tokens))

theorem allErrors_prefix_bind (course : Course α) (next : α → Course β) (tokens : List Token) :
    allErrors (course.run tokens) <+: allErrors ((course >>= next).run tokens) := by
  rw [Course.run_bind]
  rcases course.run tokens with ⟨errors, failure | ⟨a, rest⟩⟩
  · exact List.prefix_refl _
  · simp only
    generalize (next a).run rest = later
    rcases later with ⟨laterErrors, failure | read⟩
    · simp only [allErrors, List.append_assoc]
      exact List.prefix_append _ _
    · exact List.prefix_append _ _

theorem allErrors_append (before errors : List ParseError) (result : Result α) :
    allErrors (before ++ errors, result) = before ++ allErrors (errors, result) := by
  rcases result with failure | read
  · exact List.append_assoc _ _ _
  · rfl

namespace Course.Reaches

variable {reach less : Nat}

theorem refl (reach : Nat) (course : Course α) : Reaches reach course course :=
  fun _ => .inl rfl

theorem run_eq {limited free : Course α} (reaches : Reaches reach limited free)
    {tokens : List Token} (few : tokens.length < reach) : limited.run tokens = free.run tokens :=
  (reaches tokens).resolve_right fun out => absurd out.1 (Nat.not_le.mpr few)

/-- Without levels nothing is read, whatever there is to be read. -/
theorem ofFail (free : Course α) :
    Reaches 0 (Clause.ofRule (Rule.fail .tooDeeplyNested)).course free :=
  fun tokens => .inr ⟨Nat.zero_le _, [], ⟨.tooDeeplyNested, tokens.head?⟩, List.prefix_refl _, rfl,
    List.nil_prefix⟩

/-- A step that runs out of levels fails with an error that says so. -/
theorem ofStep {limited free : Step α} (reaches : limited.Reaches reach free) :
    Reaches reach (Course.ofStep limited) (Course.ofStep free) := by
  intro tokens
  rw [Course.run_ofStep, Course.run_ofStep]
  rcases reaches tokens with same | ⟨long, failure, failed, isLimit⟩
  · exact .inl (by rw [same])
  · refine .inr ⟨long, [], failure.error, ?_, isLimit, List.nil_prefix⟩
    rw [failed]
    exact List.prefix_refl _

theorem bind {limited free : Course α} {next next' : α → Course β}
    (first : Reaches reach limited free) (second : ∀ a, Reaches reach (next a) (next' a)) :
    Reaches reach (limited >>= next) (free >>= next') := by
  intro tokens
  rcases first tokens with same | ⟨long, out⟩
  · rw [Course.run_bind, Course.run_bind, same]
    have kept := free.keeps tokens
    rcases ran : free.run tokens with ⟨errors, failure | ⟨a, rest⟩⟩
    · exact .inl rfl
    · rw [ran] at kept
      rcases second a rest with sameNext | ⟨long, out⟩
      · exact .inl (by simp only [sameNext])
      · refine .inr ⟨long.trans (List.IsSuffix.length_le kept), ?_⟩
        simp only [allErrors_append]
        exact out.append_left errors
  · exact .inr ⟨long, out.of_prefix (allErrors_prefix_bind _ _ _) (allErrors_prefix_bind _ _ _)⟩

/-- A selected token is one token more. -/
theorem byToken {select select' : Token → Option (Course α)} {otherwise otherwise' : Clause α}
    (selects : ∀ token, Option.Rel (Reaches less) (select token) (select' token))
    (others : Reaches reach otherwise.course otherwise'.course) (le : reach ≤ less + 1) :
    Reaches reach (Clause.byToken select otherwise).course
      (Clause.byToken select' otherwise').course := by
  intro tokens
  cases tokens with
  | nil => exact others []
  | cons token rest =>
      have selected := selects token
      cases there : select' token with
      | none =>
          rw [there] at selected
          rw [Clause.run_byToken_of_none (eq_none_of_rel_none selected),
            Clause.run_byToken_of_none there]
          exact others (token :: rest)
      | some next' =>
          rw [there] at selected
          rcases exists_of_rel_some selected with ⟨next, here, reaches⟩
          rw [Clause.run_byToken_of_some here, Clause.run_byToken_of_some there]
          exact (reaches rest).imp_right fun out =>
            ⟨le.trans (Nat.succ_le_succ out.1), out.2⟩

end Course.Reaches

/-! ## Lists of declarations -/

/-- An attempt leaves all errors of the declaration. -/
theorem attempt_errors (inBlock : Bool) (declaration : Clause α) (tokens : List Token) :
    (attempt inBlock declaration tokens).1 = allErrors (declaration.course.run tokens) := by
  unfold attempt
  rcases declaration.course.run tokens with ⟨errors, failure | ⟨a, rest⟩⟩ <;> rfl

theorem declarationsFrom_reaches {reach : Nat} {declaration declaration' : Clause α}
    (inBlock : Bool) (reaches : declaration.course.Reaches reach declaration'.course)
    (tokens : List Token) :
    declarationsFrom inBlock declaration tokens = declarationsFrom inBlock declaration' tokens ∨
      reach ≤ tokens.length ∧ RunsOut (declarationsFrom inBlock declaration tokens).1
        (declarationsFrom inBlock declaration' tokens).1 := by
  fun_induction declarationsFrom inBlock declaration' tokens with
  | case1 tokens start => exact .inl (declarationsFrom_of_nil start)
  | case2 tokens token rest start closes => exact .inl (declarationsFrom_of_closes start closes)
  | case3 tokens token rest start opens tried later ih =>
      have shorter := (List.dropWhile_suffix (l := tokens) Token.isSeparator).length_le
      rw [start] at shorter
      rw [declarationsFrom_of_opens start opens]
      rcases reaches (token :: rest) with same | ⟨long, out⟩
      · have tries : attempt inBlock declaration (token :: rest) = tried := by
          simp only [tried, attempt, same]
        rw [tries]
        rcases ih with sameLater | ⟨long, out⟩
        · exact .inl (by rw [sameLater])
        · have left := (attempt_suffix inBlock declaration' (token :: rest)).length_le
          exact .inr ⟨long.trans (left.trans shorter), out.append_left tried.1⟩
      · refine .inr ⟨long.trans shorter, ?_⟩
        rw [attempt_errors]
        refine out.of_prefix (List.prefix_append _ _) ?_
        rw [← attempt_errors inBlock]
        exact List.prefix_append _ _

theorem declarations_reaches {reach : Nat} {declaration declaration' : Clause α}
    (reaches : declaration.course.Reaches reach declaration'.course) :
    (declarations declaration).Reaches reach (declarations declaration') := by
  intro tokens
  rcases declarationsFrom_reaches true reaches tokens with same | out
  · exact .inl (by simp only [declarations, same])
  · exact .inr out

/-! ## Statements -/

section Rules

variable {reach : Nat} {expression expression' : Rule Expr}
  (reaches : expression.step.Reaches reach expression'.step)
include reaches

theorem expressionStatement_reaches :
    (expressionStatement expression).step.Reaches reach
      (expressionStatement expression').step := by
  apply reaches.bind
  intro value
  exact .refl _ _

theorem letDeclaration_reaches :
    (letDeclaration expression).Reaches reach (letDeclaration expression') := by
  apply (Step.Reaches.refl _ _).bind
  intro name
  apply (Step.Reaches.refl _ _).bind
  intro accepted
  cases accepted with
  | none => exact .refl _ _
  | some equals =>
      apply reaches.bind
      intro initializer
      exact .refl _ _

theorem choice_reaches : (choice expression).Reaches reach (choice expression') := by
  apply reaches.bind
  intro condition
  apply (Step.Reaches.refl _ _).bind
  intro comma
  apply (Step.Reaches.refl _ _).bind
  intro doToken
  apply (Step.Reaches.refl _ _).bind
  intro colon
  apply reaches.bind
  intro positive
  apply (Step.Reaches.refl _ _).bind
  intro accepted
  cases accepted with
  | none => exact .refl _ _
  | some secondComma =>
      apply (Step.Reaches.refl _ _).bind
      intro elseToken
      apply (Step.Reaches.refl _ _).bind
      intro secondColon
      apply reaches.bind
      intro negative
      exact .refl _ _

theorem branchCondition_reaches :
    (branchCondition expression).Reaches reach (branchCondition expression') := by
  apply (Step.Reaches.refl _ _).bind
  intro opening
  apply reaches.bind
  intro condition
  exact .refl _ _

variable {statement statement' : Clause Stmt}
  (reachesStatement : statement.course.Reaches reach statement'.course)
include reachesStatement

theorem branch_reaches :
    (branch expression statement).Reaches reach (branch expression' statement') := by
  apply (Course.Reaches.ofStep (branchCondition_reaches reaches)).bind
  intro condition
  apply reachesStatement.bind
  intro positive
  apply (Course.Reaches.refl _ _).bind
  intro found
  split
  · apply (Course.Reaches.refl _ _).bind
    intro _
    apply reachesStatement.bind
    intro negative
    exact .refl _ _
  · exact .refl _ _

theorem conditional_reaches :
    (conditional expression statement).Reaches reach (conditional expression' statement') := by
  apply (Course.Reaches.refl _ _).bind
  intro next
  split
  · exact branch_reaches reaches reachesStatement
  · exact .ofStep (choice_reaches reaches)

theorem declaration_reaches :
    (declaration expression statement).course.Reaches reach
      (declaration expression' statement').course := by
  apply Course.Reaches.byToken _ reachesStatement (Nat.le_succ reach)
  intro token
  split
  · exact .some (.ofStep (letDeclaration_reaches reaches))
  · exact .none

theorem block_reaches :
    (block expression statement).Reaches reach (block expression' statement') := by
  apply (declarations_reaches (declaration_reaches reaches reachesStatement)).bind
  intro body
  exact .refl _ _

end Rules

/-- A statement, where one level has been opened for it and `expression` and `statement` read what
lies one level deeper. -/
def openedStatement (expression : Rule Expr) (statement : Clause Stmt) : Clause Stmt :=
  Clause.byToken
    (fun token =>
      match token.kind with
      | .sign .leftBrace => some (block expression statement)
      | .keyword .ifWord => some (conditional expression statement)
      | _ => none)
    (.ofRule (expressionStatement expression))

theorem statement_succ (room : Nat) :
    statement (room + 1) = openedStatement (expression room) (statement room) :=
  rfl

/-- An expression may begin with the statement, but a statement in it stands behind a token. -/
theorem openedStatement_reaches {reach less : Nat} {expression expression' : Rule Expr}
    {statement statement' : Clause Stmt}
    (reaches : expression.step.Reaches reach expression'.step)
    (reachesStatement : statement.course.Reaches less statement'.course) (le : less ≤ reach)
    (lt : reach ≤ less + 1) :
    (openedStatement expression statement).course.Reaches reach
      (openedStatement expression' statement').course := by
  have fewer := reaches.mono le
  apply Course.Reaches.byToken _ (.ofStep (expressionStatement_reaches reaches)) lt
  intro token
  split
  · exact .some (block_reaches fewer reachesStatement)
  · exact .some (conditional_reaches fewer reachesStatement)
  · exact .none

/-- With more levels more is read, and what can be read with few levels is read the same.  One
level goes to the statement itself. -/
theorem statement_reaches_of_le {room more : Nat} (le : room ≤ more) :
    (statement room).course.Reaches (room - 1) (statement more).course := by
  induction room generalizing more with
  | zero => exact .ofFail _
  | succ room ih =>
      rcases Nat.exists_eq_add_of_le' le with ⟨others, rfl⟩
      have inner := Nat.le_add_left room others
      exact openedStatement_reaches (operands_reaches_of_le inner).expression (ih inner)
        (Nat.sub_le room 1) (by omega)

end Descriptor.Grammar
