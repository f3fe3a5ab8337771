import Descriptor.Proofs.Grammar.Height
import Descriptor.Proofs.Grammar.Limit.Statement
import Descriptor.Proofs.Grammar.Recovery

/-!
# Reading without a limit

The grammar without a limit has the same rules, but each of them is its own rule for what lies one
level deeper.  Since levels are opened behind tokens, there is such a grammar: as many levels as
there are tokens are enough for any of them.  The limit takes nothing from it but the programs that
need more levels than there may be.
-/

namespace Descriptor

namespace Grammar

variable {α : Type}

/-- A grammar in which the rules for what lies one level deeper are the rules themselves. -/
structure Unlimited where
  operands : Operands
  statement : Clause Stmt
  operands_eq : operands = ⟨assignment operands, unary operands⟩
  statement_eq : statement = openedStatement operands.expression statement

namespace Unlimited

variable (grammar : Unlimited)

/-- The statements that tokens spell, with any number of levels, and an error for each declaration
that was dropped. -/
def parse (tokens : List Token) : List Stmt × List CompileError :=
  let declaration := declaration grammar.operands.expression grammar.statement
  let read := declarationsFrom false declaration (tokens.takeWhile (!·.isEnd))
  (read.2.1, read.1.map (·.report (closingToken tokens)))

/-! ## Reading with and without a limit -/

theorem operands_reaches (room : Nat) : (Grammar.operands room).Reaches room grammar.operands := by
  induction room with
  | zero => exact ⟨.ofFail _, .ofFail _⟩
  | succ room ih =>
      rw [grammar.operands_eq]
      exact ⟨assignment_reaches ih, unary_reaches ih⟩

theorem statement_reaches (room : Nat) :
    (Grammar.statement room).course.Reaches (room - 1) grammar.statement.course := by
  induction room with
  | zero => exact .ofFail _
  | succ room ih =>
      rw [statement_succ, grammar.statement_eq]
      exact openedStatement_reaches (grammar.operands_reaches room).expression ih
        (Nat.sub_le room 1) (by omega)

theorem declarations_reaches (limit : Nat) (tokens : List Token) :
    let limited := declarationsFrom false
      (declaration (expression limit) (Grammar.statement limit)) tokens
    let free := declarationsFrom false
      (declaration grammar.operands.expression grammar.statement) tokens
    limited = free ∨ limit - 1 ≤ tokens.length ∧ RunsOut limited.1 free.1 :=
  declarationsFrom_reaches false (declaration_reaches
    ((grammar.operands_reaches limit).expression.mono (Nat.sub_le limit 1))
    (grammar.statement_reaches limit)) tokens

/-- With more levels than tokens there is no limit. -/
theorem parseWithin_eq {limit : Nat} {tokens : List Token} (enough : tokens.length + 1 < limit) :
    parseWithin limit tokens = grammar.parse tokens := by
  have fewer : (tokens.takeWhile (!·.isEnd)).length ≤ tokens.length :=
    (List.takeWhile_sublist _).length_le
  rcases grammar.declarations_reaches limit (tokens.takeWhile (!·.isEnd)) with same | ⟨long, -⟩
  · simp only [parseWithin, Unlimited.parse, same]
  · omega

/-- The limit makes a difference only behind an error that no level was left, and in front of the
first such error all errors are the same. -/
theorem parse_eq_or_runsOut (tokens : List Token) :
    Descriptor.parse tokens = grammar.parse tokens ∨ ∃ common error,
      common ++ [error] <+: (Descriptor.parse tokens).2 ∧ error.fault = .parse .tooDeeplyNested ∧
        common <+: (grammar.parse tokens).2 := by
  rcases grammar.declarations_reaches nestingLimit (tokens.takeWhile (!·.isEnd)) with
    same | ⟨-, common, error, isFirst, isLimit, inOthers⟩
  · left
    simp only [Descriptor.parse, parseWithin, Unlimited.parse, same]
  · refine .inr ⟨common.map (·.report (closingToken tokens)), error.report (closingToken tokens),
      ?_, ?_, inOthers.map _⟩
    · have reported := isFirst.map (·.report (closingToken tokens))
      rwa [List.map_append] at reported
    · exact congrArg CompileFault.parse isLimit

/-- Without a limit exactly the canonical programs are read, however deep they are. -/
theorem parse_eq_iff {tokens : List Token} {program : List Stmt} :
    grammar.parse tokens = (program, []) ↔
      BodyWritten Separators program (readTokens tokens) [] ∧ CanonicalBody program := by
  -- Any limit will do that neither the tokens nor the program reach.
  have enough : tokens.length + 1 < tokens.length + 2 + depthOfBody program := by omega
  rw [← grammar.parseWithin_eq enough, parseWithin_eq_iff]
  have allowed : depthOfBody program ≤ tokens.length + 2 + depthOfBody program :=
    Nat.le_add_left _ _
  exact ⟨fun read => ⟨read.1, read.2.1⟩, fun read => ⟨read.1, read.2, allowed⟩⟩

end Unlimited

/-! ## As many levels as there are tokens -/

/-- Rules are the same if they read the same. -/
theorem Rule.eq_of_run {rule rule' : Rule α}
    (same : ∀ tokens, rule.step.run tokens = rule'.step.run tokens) : rule = rule' := by
  rcases rule with ⟨⟨run, _⟩, _⟩
  rcases rule' with ⟨⟨run', _⟩, _⟩
  cases (funext same : run = run')
  rfl

theorem Clause.eq_of_run {clause clause' : Clause α}
    (same : ∀ tokens, clause.course.run tokens = clause'.course.run tokens) : clause = clause' := by
  rcases clause with ⟨⟨run, _⟩, _⟩
  rcases clause' with ⟨⟨run', _⟩, _⟩
  cases (funext same : run = run')
  rfl

/-- Reads with one level more than there are tokens. -/
def Rule.unlimited (rules : Nat → Rule α) : Rule α where
  step := {
    run tokens := (rules (tokens.length + 1)).step.run tokens
    keeps tokens := (rules (tokens.length + 1)).step.keeps tokens }
  consumes {tokens _ _} done := (rules (tokens.length + 1)).consumes done

/-- Reads with two levels more than there are tokens, since a statement takes a level before it
reads a token. -/
def Clause.unlimited (clauses : Nat → Clause α) : Clause α where
  course := {
    run tokens := (clauses (tokens.length + 2)).course.run tokens
    keeps tokens := (clauses (tokens.length + 2)).course.keeps tokens }
  consumes {tokens _ _} done := (clauses (tokens.length + 2)).consumes done

theorem Rule.reaches_unlimited {rules : Nat → Rule α}
    (mono : ∀ {room more}, room ≤ more → (rules room).step.Reaches room (rules more).step)
    (room : Nat) : (rules room).step.Reaches room (Rule.unlimited rules).step := by
  intro tokens
  rcases Nat.lt_or_ge tokens.length room with few | many
  · exact .inl ((mono few).run_eq (Nat.lt_succ_self _)).symm
  · exact mono (Nat.le_succ_of_le many) tokens

theorem Clause.reaches_unlimited {clauses : Nat → Clause α}
    (mono : ∀ {room more}, room ≤ more →
      (clauses room).course.Reaches (room - 1) (clauses more).course)
    (room : Nat) : (clauses room).course.Reaches (room - 1) (Clause.unlimited clauses).course := by
  intro tokens
  rcases Nat.lt_or_ge (tokens.length + 1) room with few | many
  · exact .inl ((mono few).run_eq (Nat.lt_succ_self _)).symm
  · exact mono (Nat.le_succ_of_le many) tokens

/-- The operands with as many levels as there are tokens. -/
def unlimitedOperands : Operands where
  expression := Rule.unlimited fun room => (operands room).expression
  unary := Rule.unlimited fun room => (operands room).unary

theorem operands_reaches_unlimited (room : Nat) :
    (operands room).Reaches room unlimitedOperands where
  expression := Rule.reaches_unlimited (fun le => (operands_reaches_of_le le).expression) room
  unary := Rule.reaches_unlimited (fun le => (operands_reaches_of_le le).unary) room

/-- The grammar without a limit. -/
def unlimited : Unlimited where
  operands := unlimitedOperands
  statement := Clause.unlimited Grammar.statement
  operands_eq := by
    have inner (tokens : List Token) := operands_reaches_unlimited tokens.length
    have expression : unlimitedOperands.expression = assignment unlimitedOperands :=
      Rule.eq_of_run fun tokens => (assignment_reaches (inner tokens)).run_eq (Nat.lt_succ_self _)
    have unary : unlimitedOperands.unary = unary unlimitedOperands :=
      Rule.eq_of_run fun tokens => (unary_reaches (inner tokens)).run_eq (Nat.lt_succ_self _)
    exact congrArg₂ Operands.mk expression unary
  statement_eq := by
    refine Clause.eq_of_run fun tokens => ?_
    have operands := operands_reaches_unlimited (tokens.length + 1)
    have inner := Clause.reaches_unlimited statement_reaches_of_le (tokens.length + 1)
    exact (openedStatement_reaches operands.expression inner (Nat.le_succ _) (Nat.le_refl _)).run_eq
      (Nat.lt_succ_self _)

end Grammar

open Grammar

/-- The limit takes away exactly the programs that are too deep.  What is read without an error
when there is no limit is read the same if it needs no more levels than there may be, and otherwise
the first error is that no level was left.  Whatever the tokens are, no statement that is read needs
more levels. -/
theorem nestingLimit_exact (grammar : Unlimited) (tokens : List Token) :
    ((grammar.parse tokens).2 = [] →
        (depthOfBody (grammar.parse tokens).1 ≤ nestingLimit →
          parse tokens = ((grammar.parse tokens).1, [])) ∧
        (nestingLimit < depthOfBody (grammar.parse tokens).1 →
          ∃ error ∈ (parse tokens).2.head?, error.fault = .parse .tooDeeplyNested)) ∧
      ∀ statement ∈ (parse tokens).1, statement.depth ≤ nestingLimit := by
  constructor
  · intro accepted
    have read : grammar.parse tokens = ((grammar.parse tokens).1, []) := Prod.ext rfl accepted
    rcases grammar.parse_eq_iff.mp read with ⟨written, canonical⟩
    constructor
    · intro allowed
      exact parse_eq_iff.mpr ⟨written, canonical, allowed⟩
    · intro tooDeep
      rcases grammar.parse_eq_or_runsOut tokens with
        same | ⟨common, error, isFirst, isLimit, inOthers⟩
      · have allowed := (parse_eq_iff.mp (same.trans read)).2.2
        exact absurd allowed (Nat.not_le.mpr tooDeep)
      · rw [accepted, List.prefix_nil] at inOthers
        subst inOthers
        rcases isFirst with ⟨others, whole⟩
        rw [← whole]
        exact ⟨error, rfl, isLimit⟩
  · exact depthOfBody_le_iff.mp (depthOfBody_parse_le tokens)

/-! ## Both sides of the limit -/

/-- `-`, as a token. -/
def minusToken : Token := ⟨.sign .minus, "-", 1⟩

/-- `1` behind the given number of `-`. -/
def negations : Nat → Expr
  | 0 => .literal (.number 1)
  | others + 1 => .unary .negate minusToken (negations others)

/-- The tokens of `1` behind the given number of `-`. -/
def tokensOfNegations : Nat → List Token
  | 0 => [oneToken]
  | others + 1 => minusToken :: tokensOfNegations others

theorem written_negations (others : Nat) :
    (negations others).Written (tokensOfNegations others) := by
  induction others with
  | zero => exact .literal rfl
  | succ others ih => exact .unary ih

theorem canonical_negations (others : Nat) : (negations others).Canonical := by
  induction others with
  | zero => trivial
  | succ others ih =>
      have tight : unaryRank ≤ (negations others).rank := by
        cases others with
        | zero => decide
        | succ others => exact le_rfl
      exact ⟨rfl, tight, ih⟩

theorem depth_negations (others : Nat) : (negations others).depth = others := by
  induction others with
  | zero => rfl
  | succ others ih => rw [negations, Expr.depth, ih]

theorem isEnd_of_mem_tokensOfNegations {others : Nat} :
    ∀ token ∈ tokensOfNegations others, token.isEnd = false := by
  induction others with
  | zero => simp [tokensOfNegations, oneToken, Token.isEnd]
  | succ others ih =>
      rw [tokensOfNegations, List.forall_mem_cons]
      exact ⟨rfl, ih⟩

/-- Without a limit any number of operators is read. -/
theorem parse_tokensOfNegations (grammar : Unlimited) (others : Nat) :
    grammar.parse (tokensOfNegations others) = ([.expression (negations others)], []) := by
  have noGap : Separators [] := List.forall_mem_nil _
  apply grammar.parse_eq_iff.mpr
  refine ⟨?_, canonical_negations others, trivial⟩
  rw [readTokens_of_noEnd isEnd_of_mem_tokensOfNegations]
  have statement : Stmt.Written Separators (.expression (negations others))
      (tokensOfNegations others ++ []) [] :=
    .expression (written_negations others) (.omitted rfl)
  simpa using BodyWritten.cons noGap statement (.nil noGap)

/-- The statement and its expression take two levels, so behind 62 operators all are taken, and one
operator more is too many. -/
theorem nestingLimit_exact_negations :
    parse (tokensOfNegations 62) = ([.expression (negations 62)], []) ∧
      ∃ error ∈ (parse (tokensOfNegations 63)).2.head?,
        error.fault = .parse .tooDeeplyNested := by
  have allowed := (nestingLimit_exact unlimited (tokensOfNegations 62)).1
  have tooDeep := (nestingLimit_exact unlimited (tokensOfNegations 63)).1
  rw [parse_tokensOfNegations] at allowed tooDeep
  constructor
  · refine (allowed rfl).1 ?_
    simp [depthOfBody, Stmt.depth, depth_negations, nestingLimit]
  · refine (tooDeep rfl).2 ?_
    simp [depthOfBody, Stmt.depth, depth_negations, nestingLimit]

end Descriptor
