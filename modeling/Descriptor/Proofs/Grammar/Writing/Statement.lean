import Descriptor.Proofs.Grammar.Reading.Statement
import Descriptor.Proofs.Grammar.Writing.Expression

/-!
# Written programs are read

The tokens that write a canonical program no deeper than allowed are read as that program, without
an error.  Together with what is known of the programs that are read, this says exactly which
tokens are read as which program.
-/

namespace Descriptor

/-! ## Ends of statements -/

/-- What stands next behind a statement that needs an end. -/
theorem Terminated.head {terminator behind : List Token}
    (terminated : Terminated terminator behind) :
    ∀ token ∈ (terminator ++ behind).head?,
      token.kind = .separator ∨ token.kind = .sign .rightBrace ∨
        token.kind = .keyword .elseWord := by
  cases terminated with
  | separator separates =>
      rintro _ ⟨⟩
      exact .inl (beq_iff_eq.mp separates)
  | omitted ends =>
      intro token first
      rw [List.nil_append, Option.mem_def] at first
      simp only [mayEnd, first, Option.all_some, Bool.or_eq_true, Grammar.closesBlock,
        beq_iff_eq] at ends
      exact .inr ends

/-- The end of a statement goes on with no expression. -/
theorem Terminated.follows {terminator behind : List Token}
    (terminated : Terminated terminator behind) (rank : Nat) :
    Follows rank (terminator ++ behind) := by
  intro token first
  rcases terminated.head token first with same | same | same
  all_goals
    rw [same]
    intro next isNext
    contradiction

/-- The end of a statement is no sign but a brace. -/
theorem Terminated.not_accepted {terminator behind : List Token} {sign : Sign}
    (terminated : Terminated terminator behind) (other : sign ≠ .rightBrace) :
    (Grammar.Step.accept? (.sign sign)).run (terminator ++ behind) =
      .ok (none, terminator ++ behind) := by
  apply Grammar.Step.run_accept?_of_ne
  intro token first isSign
  rcases terminated.head token first with same | same | same
  all_goals simp_all

namespace Grammar

/-! ## Statements without statements inside -/

/-- The clause reads every statement that may be built, from the tokens that write it. -/
def Clause.Completes (clause : Clause Stmt) (room : Nat) : Prop :=
  ∀ ⦃statement used rest⦄, statement.Written Separators used rest → statement.Fits room rest →
    statement.isDeclaration = false →
      clause.course.run (used ++ rest) = ([], .ok (statement, rest))

section Rules

variable {expression : Rule Expr} {room : Nat} (completes : expression.Completes room 0)
include completes

theorem expressionStatement_completes {value : Expr} {used rest : List Token}
    (written : (Stmt.expression value).Written Separators used rest)
    (fits : (Stmt.expression value).Fits (room + 1) rest) :
    (expressionStatement expression).step.run (used ++ rest) = .ok (.expression value, rest) := by
  cases written with
  | @expression _ used terminator _ written terminated =>
      have read : ExprRead room 0 value used :=
        ⟨written, fits.canonical, Nat.le_of_succ_le_succ fits.depth, Nat.zero_le _⟩
      rw [expressionStatement, List.append_assoc,
        Rule.run_andThen_of_run (completes read (terminated.follows 0)),
        Step.run_bind_of_run (run_endStatement_of_terminated terminated _), Step.run_pure]

/-- A declaration is written by `let` and tokens that are read as the rest of it. -/
theorem letDeclaration_completes {name : Token} {initializer : Option Expr}
    {used rest : List Token}
    (written : (Stmt.declaration name initializer).Written Separators used rest)
    (fits : (Stmt.declaration name initializer).Fits room rest) :
    ∃ letToken tail, used = letToken :: tail ∧ letToken.kind = .keyword .letWord ∧
      (letDeclaration expression).run (tail ++ rest) =
        .ok (.declaration name initializer, rest) := by
  cases written with
  | @declaration _ letToken terminator _ isLet terminated =>
      refine ⟨letToken, name :: terminator, rfl, isLet, ?_⟩
      rw [letDeclaration, List.cons_append,
        Step.run_bind_of_run (Rule.run_expect_of_kind fits.canonical _ _),
        Step.run_bind_of_run (terminated.not_accepted (by decide))]
      dsimp only
      rw [Step.run_bind_of_run (run_endStatement_of_terminated terminated _), Step.run_pure]
  | @initialized _ letToken equals initializer used terminator _ isLet isEquals written
      terminated =>
      rcases fits.canonical with ⟨isName, canonical⟩
      have read : ExprRead room 0 initializer used :=
        ⟨written, canonical, fits.depth, Nat.zero_le _⟩
      refine ⟨letToken, name :: equals :: (used ++ terminator), rfl, isLet, ?_⟩
      simp only [List.cons_append, List.append_assoc]
      rw [letDeclaration, Step.run_bind_of_run (Rule.run_expect_of_kind isName _ _),
        Step.run_bind_of_run (Step.run_accept?_of_kind isEquals _)]
      dsimp only
      rw [Step.run_bind_of_run (completes read (terminated.follows 0)),
        Step.run_bind_of_run (run_endStatement_of_terminated terminated _), Step.run_pure]

omit completes in
/-- A condition that does not begin with a parenthesis begins a choice. -/
theorem conditional_of_condition {statement : Clause Stmt} {condition : Expr} {used : List Token}
    (read : ExprRead room 0 condition used) (other : condition.opensParenthesis = false)
    (rest : List Token) :
    (conditional expression statement).run (used ++ rest) =
      ([], (choice expression).run (used ++ rest)) := by
  rcases condition.exists_opens used read.written read.canonical with ⟨token, tail, rfl, opens⟩
  rw [opens.parenthesis] at other
  simp [conditional, Step.next?, other]

/-- A choice is written by `if` and tokens that are read as the rest of it. -/
theorem choice_completes (statement : Clause Stmt) {condition positive : Expr}
    {negative : Option Expr} {used rest : List Token}
    (written : (Stmt.choice condition positive negative).Written Separators used rest)
    (fits : (Stmt.choice condition positive negative).Fits (room + 1) rest) :
    ∃ ifToken tail, used = ifToken :: tail ∧ ifToken.kind = .keyword .ifWord ∧
      (conditional expression statement).run (tail ++ rest) =
        ([], .ok (.choice condition positive negative, rest)) := by
  cases written with
  | @choice _ _ ifToken comma doToken colon conditionUsed used terminator _ isIf conditionWritten
      isComma isDo isColon written terminated =>
      rcases fits.canonical with ⟨opensOther, conditionCanonical, canonical⟩
      have depth : max condition.depth positive.depth < room := Nat.le_of_succ_le_succ fits.depth
      rcases Nat.max_lt.mp depth with ⟨conditionDepth, positiveDepth⟩
      have conditionRead : ExprRead room 0 condition conditionUsed :=
        ⟨conditionWritten, conditionCanonical, conditionDepth, Nat.zero_le _⟩
      have read : ExprRead room 0 positive used :=
        ⟨written, canonical, positiveDepth, Nat.zero_le _⟩
      refine ⟨ifToken, _, rfl, isIf, ?_⟩
      rw [List.append_assoc, conditional_of_condition conditionRead opensOther]
      apply congrArg (Prod.mk [])
      simp only [List.cons_append, List.append_assoc]
      rw [choice, Step.run_bind_of_run (completes conditionRead (.of_kind isComma rfl)),
        Step.run_bind_of_run (Rule.run_expect_of_kind isComma _ _),
        Step.run_bind_of_run (Rule.run_expect_of_kind isDo _ _),
        Step.run_bind_of_run (Rule.run_expect_of_kind isColon _ _),
        Step.run_bind_of_run (completes read (terminated.follows 0)),
        Step.run_bind_of_run (terminated.not_accepted (by decide))]
      dsimp only
      rw [Step.run_bind_of_run (run_endStatement_of_terminated terminated _), Step.run_pure]
  | @choiceElse _ _ negative ifToken comma doToken colon secondComma elseToken secondColon
      conditionUsed used negativeUsed terminator _ isIf conditionWritten isComma isDo isColon
      written isSecondComma isElse isSecondColon negativeWritten terminated =>
      rcases fits.canonical with ⟨opensOther, conditionCanonical, canonical, negativeCanonical⟩
      have depth : max (max condition.depth positive.depth) negative.depth < room :=
        Nat.le_of_succ_le_succ fits.depth
      rcases Nat.max_lt.mp depth with ⟨depths, negativeDepth⟩
      rcases Nat.max_lt.mp depths with ⟨conditionDepth, positiveDepth⟩
      have conditionRead : ExprRead room 0 condition conditionUsed :=
        ⟨conditionWritten, conditionCanonical, conditionDepth, Nat.zero_le _⟩
      have read : ExprRead room 0 positive used :=
        ⟨written, canonical, positiveDepth, Nat.zero_le _⟩
      have negativeRead : ExprRead room 0 negative negativeUsed :=
        ⟨negativeWritten, negativeCanonical, negativeDepth, Nat.zero_le _⟩
      refine ⟨ifToken, _, rfl, isIf, ?_⟩
      rw [List.append_assoc, conditional_of_condition conditionRead opensOther]
      apply congrArg (Prod.mk [])
      simp only [List.cons_append, List.append_assoc]
      rw [choice, Step.run_bind_of_run (completes conditionRead (.of_kind isComma rfl)),
        Step.run_bind_of_run (Rule.run_expect_of_kind isComma _ _),
        Step.run_bind_of_run (Rule.run_expect_of_kind isDo _ _),
        Step.run_bind_of_run (Rule.run_expect_of_kind isColon _ _),
        Step.run_bind_of_run (completes read (.of_kind isSecondComma rfl)),
        Step.run_bind_of_run (Step.run_accept?_of_kind isSecondComma _)]
      dsimp only
      rw [Step.run_bind_of_run (Rule.run_expect_of_kind isElse _ _),
        Step.run_bind_of_run (Rule.run_expect_of_kind isSecondColon _ _),
        Step.run_bind_of_run (completes negativeRead (terminated.follows 0)),
        Step.run_bind_of_run (run_endStatement_of_terminated terminated _), Step.run_pure]

/-! ## Branches -/

theorem branchCondition_completes {condition : Expr} {opening closing : Token}
    {used gap rest : List Token} (opens : opening.kind = .sign .leftParen)
    (read : ExprRead room 0 condition used) (closes : closing.kind = .sign .rightParen)
    (separators : Separators gap) (start : rest.dropWhile Token.isSeparator = rest) :
    (branchCondition expression).run (opening :: (used ++ closing :: (gap ++ rest))) =
      .ok (condition, rest) := by
  rw [branchCondition, Step.run_bind_of_run (Rule.run_expect_of_kind opens _ _),
    Step.run_bind_of_run (completes read (.of_kind closes rfl)),
    Step.run_bind_of_run (Rule.run_expect_of_kind closes _ _),
    Step.run_bind_of_run (Step.run_skipSeparators_of_gap separators start), Step.run_pure]

omit completes in
/-- No separators are skipped in front of a statement. -/
theorem dropWhile_statement {Gap : List Token → Prop} {statement : Stmt} {used behind : List Token}
    (written : statement.Written Gap used behind) (canonical : statement.Canonical)
    (rest : List Token) :
    (used ++ rest).dropWhile Token.isSeparator = used ++ rest := by
  rcases Stmt.exists_opens written canonical with ⟨token, tail, rfl, opens⟩
  exact dropWhile_isSeparator_of_ne (opens.kind_ne rfl) _

omit completes in
/-- An opening parenthesis begins a branch. -/
theorem conditional_of_parenthesis {statement : Clause Stmt} {opening : Token}
    (opens : opening.kind = .sign .leftParen) (rest : List Token) :
    (conditional expression statement).run (opening :: rest) =
      (branch expression statement).run (opening :: rest) := by
  simp [conditional, Step.next?, opens]

/-- A branch is written by `if` and tokens that are read as the rest of it. -/
theorem branch_completes {statement : Clause Stmt} (completesStatement : statement.Completes room)
    {condition : Expr} {positive : Stmt} {negative : Option Stmt} {used rest : List Token}
    (written : (Stmt.branch condition positive negative).Written Separators used rest)
    (fits : (Stmt.branch condition positive negative).Fits (room + 1) rest) :
    ∃ ifToken tail, used = ifToken :: tail ∧ ifToken.kind = .keyword .ifWord ∧
      (conditional expression statement).run (tail ++ rest) =
        ([], .ok (.branch condition positive negative, rest)) := by
  cases written with
  | @branch _ _ ifToken opening closing conditionUsed gap used _ isIf opens conditionWritten closes
      separators written =>
      rcases fits.canonical with ⟨conditionCanonical, canonical, notDeclaration⟩
      have depth : max (condition.depth + 1) positive.depth ≤ room :=
        Nat.le_of_succ_le_succ fits.depth
      rcases Nat.max_le.mp depth with ⟨conditionDepth, positiveDepth⟩
      have conditionRead : ExprRead room 0 condition conditionUsed :=
        ⟨conditionWritten, conditionCanonical, conditionDepth, Nat.zero_le _⟩
      have noElse : elseFollows rest = false := fits.noElse rfl
      have positiveFits : positive.Fits room rest := ⟨canonical, positiveDepth, fun _ => noElse⟩
      have start := dropWhile_statement written canonical rest
      refine ⟨ifToken, _, rfl, isIf, ?_⟩
      simp only [List.cons_append, List.append_assoc]
      rw [conditional_of_parenthesis opens, branch,
        Course.run_bind_of_run (Course.run_ofStep_of_run
          (branchCondition_completes completes opens conditionRead closes separators start)),
        Course.run_bind_of_run (completesStatement written positiveFits notDeclaration),
        Course.run_bind_of_run (Course.run_ofStep_of_run (run_acceptElse_of_elseFollows noElse)),
        if_neg Bool.false_ne_true, Course.run_pure]
  | @branchElse _ _ negative ifToken opening closing elseToken conditionUsed gap used before after
      negativeUsed _ isIf opens conditionWritten closes separators written separatorsBefore isElse
      separatorsAfter negativeWritten =>
      obtain ⟨conditionCanonical, canonical, notDeclaration, takesNoElse, negativeCanonical,
        negativeNotDeclaration⟩ := fits.canonical
      have depth : max (max (condition.depth + 1) positive.depth) negative.depth ≤ room :=
        Nat.le_of_succ_le_succ fits.depth
      rcases Nat.max_le.mp depth with ⟨depths, negativeDepth⟩
      rcases Nat.max_le.mp depths with ⟨conditionDepth, positiveDepth⟩
      have conditionRead : ExprRead room 0 condition conditionUsed :=
        ⟨conditionWritten, conditionCanonical, conditionDepth, Nat.zero_le _⟩
      have positiveFits : positive.Fits room
          (before ++ elseToken :: (after ++ (negativeUsed ++ rest))) :=
        ⟨canonical, positiveDepth, fun takes => absurd takes (by simp [takesNoElse])⟩
      have negativeFits : negative.Fits room rest := ⟨negativeCanonical, negativeDepth, fits.noElse⟩
      have start := dropWhile_statement written canonical
        (before ++ elseToken :: (after ++ (negativeUsed ++ rest)))
      have negativeStart := dropWhile_statement negativeWritten negativeCanonical rest
      refine ⟨ifToken, _, rfl, isIf, ?_⟩
      simp only [List.cons_append, List.append_assoc]
      rw [conditional_of_parenthesis opens, branch,
        Course.run_bind_of_run (Course.run_ofStep_of_run
          (branchCondition_completes completes opens conditionRead closes separators start)),
        Course.run_bind_of_run (completesStatement written positiveFits notDeclaration),
        Course.run_bind_of_run
          (Course.run_ofStep_of_run (run_acceptElse_of_separators separatorsBefore isElse)),
        if_pos rfl, Course.run_bind_of_run
          (Course.run_ofStep_of_run (Step.run_skipSeparators_of_gap separatorsAfter negativeStart)),
        Course.run_bind_of_run
          (completesStatement negativeWritten negativeFits negativeNotDeclaration),
        Course.run_pure]

/-- Declarations are read if statements are. -/
theorem declaration_completes {statement : Clause Stmt}
    (completesStatement : statement.Completes room) {result : Stmt} {used rest : List Token}
    (written : result.Written Separators used rest) (fits : result.Fits room rest) :
    (declaration expression statement).course.run (used ++ rest) = ([], .ok (result, rest)) := by
  cases result with
  | declaration name initializer =>
      rcases letDeclaration_completes completes written fits with ⟨letToken, tail, rfl, isLet, ran⟩
      exact (Clause.run_byToken_of_some (if_pos (beq_iff_eq.mpr isLet)) _).trans
        (Course.run_ofStep_of_run ran)
  | _ =>
      rcases Stmt.exists_opens written fits.canonical with ⟨token, tail, rfl, opens⟩
      have notLet : ¬(token.kind == .keyword .letWord) = true := by
        rw [← opens.declaration]
        exact Bool.false_ne_true
      exact (Clause.run_byToken_of_none (if_neg notLet) _).trans
        (completesStatement written fits rfl)

end Rules

/-! ## Lists of declarations -/

/-- Where a list of declarations ends: at the end of the text, or in front of a closing brace. -/
def AtEnd (inBlock : Bool) (behind : List Token) : Prop :=
  behind = [] ∨ inBlock = true ∧ ∃ token rest, behind = token :: rest ∧
    token.kind = .sign .rightBrace

theorem AtEnd.dropWhile {inBlock : Bool} {behind : List Token} (ends : AtEnd inBlock behind) :
    behind.dropWhile Token.isSeparator = behind := by
  rcases ends with rfl | ⟨-, token, rest, rfl, isBrace⟩
  · rfl
  · exact dropWhile_isSeparator_of_ne (by simp [isBrace]) rest

/-- No `else` stands where a list of declarations ends. -/
theorem AtEnd.noElse {inBlock : Bool} {behind : List Token} (ends : AtEnd inBlock behind) :
    elseFollows behind = false := by
  rw [elseFollows, ends.dropWhile]
  rcases ends with rfl | ⟨-, token, rest, rfl, isBrace⟩
  · rfl
  · simp [isBrace]

/-- Where declarations end, none is read. -/
theorem declarationsFrom_of_end {declaration : Clause Stmt} {inBlock : Bool} {behind : List Token}
    (ends : AtEnd inBlock behind) :
    declarationsFrom inBlock declaration behind = ([], [], behind) := by
  have start := ends.dropWhile
  rcases ends with rfl | ⟨rfl, token, rest, rfl, isBrace⟩
  · exact declarationsFrom_of_nil start
  · exact declarationsFrom_of_closes start (by simp [closesBlock, isBrace])

/-- A declaration that is read comes first. -/
theorem declarationsFrom_of_run {declaration : Clause Stmt} {inBlock : Bool} {token : Token}
    {gap tokens rest : List Token} {statement : Stmt} (separators : Separators gap)
    (notSeparator : token.kind ≠ .separator) (notBrace : token.kind ≠ .sign .rightBrace)
    (ran : declaration.course.run (token :: tokens) = ([], .ok (statement, rest))) :
    declarationsFrom inBlock declaration (gap ++ token :: tokens) =
      ((declarationsFrom inBlock declaration rest).1,
        statement :: (declarationsFrom inBlock declaration rest).2.1,
          (declarationsFrom inBlock declaration rest).2.2) := by
  have start := dropWhile_isSeparator_of_ne notSeparator tokens
  have attempted : attempt inBlock declaration (token :: tokens) = ([], some statement, rest) := by
    rw [attempt, ran]
  rw [declarationsFrom_of_separators separators,
    declarationsFrom_of_opens start (by simp [closesBlock, notBrace]), attempted]
  rfl

/-- Where no `else` follows, none follows statements that are written there. -/
theorem elseFollows_append {body : List Stmt} {used behind : List Token}
    (written : BodyWritten Separators body used behind) (canonical : CanonicalBody body)
    (noElse : elseFollows behind = false) : elseFollows (used ++ behind) = false := by
  cases written with
  | nil separators => rwa [elseFollows, separators.dropWhile_append]
  | cons separators written _ =>
      rcases Stmt.exists_opens written canonical.1 with ⟨token, tail, rfl, opens⟩
      rw [elseFollows, List.append_assoc, separators.dropWhile_append, List.append_assoc,
        List.cons_append, dropWhile_isSeparator_of_ne (opens.kind_ne rfl)]
      simpa using opens.kind_ne rfl

/-- The tokens that write declarations are read as these, and then what stands behind them, unless
it is an `else`. -/
theorem declarationsFrom_append {declaration : Clause Stmt} {room : Nat}
    (completes : ∀ {statement : Stmt} {used rest : List Token},
      statement.Written Separators used rest → statement.Fits room rest →
        declaration.course.run (used ++ rest) = ([], .ok (statement, rest)))
    (inBlock : Bool) {body : List Stmt} {used behind : List Token}
    (written : BodyWritten Separators body used behind) (canonical : CanonicalBody body)
    (depth : depthOfBody body ≤ room) (noElse : elseFollows behind = false) :
    declarationsFrom inBlock declaration (used ++ behind) =
      ((declarationsFrom inBlock declaration behind).1,
        body ++ (declarationsFrom inBlock declaration behind).2.1,
          (declarationsFrom inBlock declaration behind).2.2) := by
  induction body generalizing used with
  | nil =>
      cases written with
      | nil separators => rw [declarationsFrom_of_separators separators, List.nil_append]
  | cons statement body ih =>
      cases written with
      | cons separators written bodyWritten =>
          rcases Nat.max_le.mp depth with ⟨statementDepth, bodyDepth⟩
          have noElseNext := elseFollows_append bodyWritten canonical.2 noElse
          have ran := completes written ⟨canonical.1, statementDepth, fun _ => noElseNext⟩
          rcases Stmt.exists_opens written canonical.1 with ⟨token, tail, rfl, opens⟩
          rw [List.cons_append] at ran
          rw [List.append_assoc, List.append_assoc, List.cons_append,
            declarationsFrom_of_run separators (opens.kind_ne rfl) (opens.kind_ne rfl) ran,
            ih bodyWritten canonical.2 bodyDepth, List.cons_append]

/-- The tokens that write declarations are read as these, up to where the declarations end. -/
theorem declarationsFrom_completes {declaration : Clause Stmt} {room : Nat}
    (completes : ∀ {statement : Stmt} {used rest : List Token},
      statement.Written Separators used rest → statement.Fits room rest →
        declaration.course.run (used ++ rest) = ([], .ok (statement, rest)))
    {inBlock : Bool} {body : List Stmt} {used behind : List Token}
    (written : BodyWritten Separators body used behind) (canonical : CanonicalBody body)
    (depth : depthOfBody body ≤ room) (ends : AtEnd inBlock behind) :
    declarationsFrom inBlock declaration (used ++ behind) = ([], body, behind) := by
  rw [declarationsFrom_append completes inBlock written canonical depth ends.noElse,
    declarationsFrom_of_end ends, List.append_nil]

theorem block_completes {expression : Rule Expr} {statement : Clause Stmt} {room : Nat}
    (completes : expression.Completes room 0) (completesStatement : statement.Completes room)
    {body : List Stmt} {used rest : List Token}
    (written : (Stmt.block body).Written Separators used rest)
    (fits : (Stmt.block body).Fits (room + 1) rest) :
    ∃ opening tail, used = opening :: tail ∧ opening.kind = .sign .leftBrace ∧
      (block expression statement).run (tail ++ rest) = ([], .ok (.block body, rest)) := by
  cases written with
  | @block _ opening closing used _ opens written closes =>
      have read : declarationsFrom true (declaration expression statement)
          (used ++ closing :: rest) = ([], body, closing :: rest) :=
        declarationsFrom_completes (declaration_completes completes completesStatement) written
          fits.canonical (Nat.le_of_succ_le_succ fits.depth)
          (.inr ⟨rfl, closing, rest, rfl, closes⟩)
      refine ⟨opening, _, rfl, opens, ?_⟩
      have ran : (declarations (declaration expression statement)).run (used ++ closing :: rest) =
          ([], .ok (body, closing :: rest)) := by
        simp only [declarations, read]
      rw [List.append_assoc, List.singleton_append, block, Course.run_bind_of_run ran,
        Course.run_bind_of_run (Course.run_ofStep_of_run (Rule.run_expect_of_kind closes _ _)),
        Course.run_pure]

/-- Every canonical statement that there is room for is read from the tokens that write it. -/
theorem statement_completes (room : Nat) : (statement room).Completes room := by
  induction room with
  | zero =>
      intro result used rest written fits notDeclaration
      exact absurd (Stmt.depth_pos notDeclaration) (Nat.not_lt_of_le fits.depth)
  | succ room ih =>
      intro result used rest written fits notDeclaration
      have completes := expression_completes room
      cases result with
      | block body =>
          rcases block_completes completes ih written fits with ⟨opening, tail, rfl, opens, ran⟩
          exact (Clause.run_byToken_of_some (by rw [opens]) _).trans ran
      | branch condition positive negative =>
          rcases branch_completes completes ih written fits with ⟨ifToken, tail, rfl, isIf, ran⟩
          exact (Clause.run_byToken_of_some (by rw [isIf]) _).trans ran
      | choice condition positive negative =>
          rcases choice_completes completes (statement room) written fits with
            ⟨ifToken, tail, rfl, isIf, ran⟩
          exact (Clause.run_byToken_of_some (by rw [isIf]) _).trans ran
      | expression value =>
          have ran := expressionStatement_completes completes written fits
          cases written with
          | expression written _ =>
              rcases value.exists_opens _ written fits.canonical with ⟨token, tail, rfl, opens⟩
              apply (Clause.run_byToken_of_none ?_ _).trans (Course.run_ofStep_of_run ran)
              split
              · rename_i isBrace
                exact absurd isBrace (opens.kind_ne rfl)
              · rename_i isIf
                exact absurd isIf (opens.kind_ne rfl)
              · rfl
      | declaration => contradiction

end Grammar

/-! ## Whole programs -/

open Grammar

/-- Exactly the canonical programs that are no deeper than allowed are read without an error, and
exactly from the tokens that write them. -/
theorem parseWithin_eq_iff {limit : Nat} {tokens : List Token} {program : List Stmt} :
    parseWithin limit tokens = (program, []) ↔
      BodyWritten Separators program (readTokens tokens) [] ∧ CanonicalBody program ∧
        depthOfBody program ≤ limit := by
  constructor
  · intro parsed
    rcases parseWithin_read limit tokens with ⟨errors, none, read⟩
    rw [parsed] at none read
    have written := read.written Separators ⟨fun _ => id, fun some => absurd (none rfl) some⟩
    exact ⟨written, read.canonical, read.depth⟩
  · rintro ⟨written, canonical, depth⟩
    have read := declarationsFrom_completes (declaration_completes
      (expression_completes limit) (statement_completes limit)) written canonical
      depth (.inl rfl : AtEnd false [])
    rw [List.append_nil] at read
    unfold parseWithin
    simp only [readTokens] at read
    simp [read]

theorem parse_eq_iff {tokens : List Token} {program : List Stmt} :
    parse tokens = (program, []) ↔
      BodyWritten Separators program (readTokens tokens) [] ∧ CanonicalBody program ∧
        depthOfBody program ≤ nestingLimit :=
  parseWithin_eq_iff

end Descriptor
