import Descriptor.Grammar.Expression
import Descriptor.Stmt

/-!
# The grammar of statements

A program is a list of declarations, and so is a block.  A declaration that fails is dropped: its
error is kept, the rest of its line is skipped, and the next declaration is tried.  So a step on
statements gives, besides its result, the errors of the declarations that were dropped on its
way.

`parse` reads a whole list of tokens.  It ends on every list, since every declaration that is
tried leaves fewer tokens than it was given, whether it is kept or dropped.
-/

namespace Descriptor

namespace Grammar

/-! ## Steps that may drop declarations -/

/-- Reads from the front of a list of tokens, and lists the errors of dropped declarations. -/
structure Course (α : Type) where
  run : List Token → List ParseError × Result α
  keeps : ∀ tokens, (run tokens).2.rest <:+ tokens

variable {α β : Type}

namespace Course

/-- A step that drops no declaration. -/
def ofStep (step : Step α) : Course α where
  run tokens := ([], step.run tokens)
  keeps := step.keeps

/-- Reads with one course and then, behind it, with the course that its value leads to. -/
protected def bind (course : Course α) (next : α → Course β) : Course β where
  run tokens :=
    match course.run tokens with
    | (errors, .ok (a, rest)) =>
        let later := (next a).run rest
        (errors ++ later.1, later.2)
    | (errors, .error failure) => (errors, .error failure)
  keeps tokens := by
    have first := course.keeps tokens
    split
    · rename_i errors a rest done
      rw [done] at first
      exact ((next a).keeps rest).trans first
    · rename_i errors failure failed
      rw [failed] at first
      exact first

instance : Monad Course where
  pure a := ofStep (pure a)
  bind := Course.bind

@[simp]
theorem run_pure (a : α) (tokens : List Token) :
    (pure a : Course α).run tokens = ([], .ok (a, tokens)) :=
  rfl

@[simp]
theorem run_ofStep (step : Step α) (tokens : List Token) :
    (ofStep step).run tokens = ([], step.run tokens) :=
  rfl

@[simp]
theorem run_bind (course : Course α) (next : α → Course β) (tokens : List Token) :
    (course >>= next).run tokens =
      match course.run tokens with
      | (errors, .ok (a, rest)) =>
          (errors ++ ((next a).run rest).1, ((next a).run rest).2)
      | (errors, .error failure) => (errors, .error failure) :=
  rfl

end Course

/-- A course that reads at least one token in success. -/
structure Clause (α : Type) where
  course : Course α
  consumes : ∀ {tokens : List Token} {a : α} {rest : List Token},
    (course.run tokens).2 = .ok (a, rest) → rest.length < tokens.length

namespace Clause

/-- A rule that drops no declaration. -/
def ofRule (rule : Rule α) : Clause α where
  course := .ofStep rule.step
  consumes := rule.consumes

/-- Reads the next token if `select` says how to go on behind it, and otherwise leaves it to
another clause. -/
def byToken (select : Token → Option (Course α)) (otherwise : Clause α) : Clause α where
  course := {
    run tokens :=
      match tokens with
      | token :: rest =>
          match select token with
          | some next => next.run rest
          | none => otherwise.course.run (token :: rest)
      | [] => otherwise.course.run []
    keeps tokens := by
      cases tokens with
      | nil => exact otherwise.course.keeps []
      | cons token rest =>
          simp only
          split
          · rename_i next _
            exact (next.keeps rest).trans (List.suffix_cons token rest)
          · exact otherwise.course.keeps (token :: rest) }
  consumes {tokens a left} done := by
    cases tokens with
    | nil => exact otherwise.consumes done
    | cons token rest =>
        simp only at done
        split at done
        · rename_i next _
          have kept := next.keeps rest
          rw [done] at kept
          have := List.IsSuffix.length_le kept
          simp only [Result.rest, List.length_cons] at this ⊢
          omega
        · exact otherwise.consumes done

end Clause

/-! ## Lists of declarations -/

/-- Whether the token closes a block. -/
def closesBlock (token : Token) : Bool :=
  token.kind == .sign .rightBrace

/-- What is behind the rest of a line: at least one token is skipped, and then all up to a
separator, which is skipped too, or up to a closing brace, which is not. -/
def behindLine : List Token → List Token
  | [] => []
  | token :: rest =>
      if token.isSeparator || rest.head?.any closesBlock then rest else behindLine rest

/-- Where the next declaration is tried after one has failed in front of `rest`.  Inside a block a
closing brace is left in place, so that the block can end there. -/
def resume (inBlock : Bool) (rest : List Token) : List Token :=
  let behind := if inBlock && rest.head?.any closesBlock then rest else behindLine rest
  behind.dropWhile Token.isSeparator

/-- Tries a declaration, and drops it when it fails.  The errors are those of its parts and its
own. -/
def attempt (inBlock : Bool) (declaration : Clause α) (tokens : List Token) :
    List ParseError × Option α × List Token :=
  match declaration.course.run tokens with
  | (errors, .ok (a, rest)) => (errors, some a, rest)
  | (errors, .error failure) =>
      (errors ++ [failure.error], none, resume inBlock failure.rest)

theorem behindLine_suffix (tokens : List Token) : behindLine tokens <:+ tokens := by
  induction tokens with
  | nil => simp [behindLine]
  | cons token rest ih =>
      unfold behindLine
      split
      · exact List.suffix_cons token rest
      · exact ih.trans (List.suffix_cons token rest)

theorem length_behindLine_lt {tokens : List Token} (nonempty : tokens ≠ []) :
    (behindLine tokens).length < tokens.length := by
  cases tokens with
  | nil => contradiction
  | cons token rest =>
      unfold behindLine
      have := (behindLine_suffix rest).length_le
      split <;> simp only [List.length_cons] <;> omega

theorem resume_suffix (inBlock : Bool) (rest : List Token) : resume inBlock rest <:+ rest := by
  unfold resume
  refine (List.dropWhile_suffix Token.isSeparator).trans ?_
  split
  · exact List.suffix_refl rest
  · exact behindLine_suffix rest

/-- What is left after an attempt is a suffix of what was there before. -/
theorem attempt_suffix (inBlock : Bool) (declaration : Clause α) (tokens : List Token) :
    (attempt inBlock declaration tokens).2.2 <:+ tokens := by
  have kept := declaration.course.keeps tokens
  unfold attempt
  split
  · rename_i ran
    rw [ran] at kept
    exact kept
  · rename_i failure ran
    rw [ran] at kept
    exact (resume_suffix inBlock failure.rest).trans kept

/-- Every attempt reads at least one token, if it does not begin where a block ends. -/
theorem length_attempt_lt {inBlock : Bool} (declaration : Clause α) {token : Token}
    {rest : List Token} (opens : (inBlock && closesBlock token) = false) :
    (attempt inBlock declaration (token :: rest)).2.2.length < (token :: rest).length := by
  have kept := declaration.course.keeps (token :: rest)
  unfold attempt
  split
  · rename_i ran
    exact declaration.consumes (congrArg Prod.snd ran)
  · rename_i errors failure ran
    rw [ran] at kept
    change failure.rest <:+ token :: rest at kept
    have shorter := kept.length_le
    unfold resume
    refine Nat.lt_of_le_of_lt (List.dropWhile_suffix Token.isSeparator).length_le ?_
    split
    · rename_i ends
      rcases Nat.lt_or_eq_of_le shorter with less | same
      · exact less
      · have := kept.eq_of_length same
        simp_all
    · by_cases empty : failure.rest = []
      · simp [empty, behindLine]
      · exact Nat.lt_of_lt_of_le (length_behindLine_lt empty) shorter

/-- Tries declarations up to the end of the text or, inside a block, up to the brace that closes
it.  Gives the errors, the declarations that were kept, and the tokens that are left. -/
def declarationsFrom (inBlock : Bool) (declaration : Clause α) (tokens : List Token) :
    List ParseError × List α × List Token :=
  match _start : tokens.dropWhile Token.isSeparator with
  | [] => ([], [], [])
  | token :: rest =>
      if _opens : inBlock && closesBlock token then ([], [], token :: rest)
      else
        let tried := attempt inBlock declaration (token :: rest)
        let later := declarationsFrom inBlock declaration tried.2.2
        (tried.1 ++ later.1, tried.2.1.toList ++ later.2.1, later.2.2)
termination_by tokens.length
decreasing_by
  have := (List.dropWhile_suffix (l := tokens) Token.isSeparator).length_le
  rw [_start] at this
  have : (attempt inBlock declaration (token :: rest)).2.2.length < (token :: rest).length :=
    length_attempt_lt declaration (Bool.eq_false_iff.mpr _opens)
  omega

theorem declarationsFrom_suffix (inBlock : Bool) (declaration : Clause α)
    (tokens : List Token) : (declarationsFrom inBlock declaration tokens).2.2 <:+ tokens := by
  fun_induction declarationsFrom inBlock declaration tokens with
  | case1 => simp
  | case2 tokens token rest start =>
      rw [← start]
      exact List.dropWhile_suffix Token.isSeparator
  | case3 tokens token rest start _ tried later ih =>
      have whole := List.dropWhile_suffix (l := tokens) Token.isSeparator
      rw [start] at whole
      exact (ih.trans (attempt_suffix inBlock declaration (token :: rest))).trans whole

/-- The declarations of a block, up to the brace that closes it. -/
def declarations (declaration : Clause α) : Course (List α) where
  run tokens :=
    let read := declarationsFrom true declaration tokens
    (read.1, .ok read.2)
  keeps := declarationsFrom_suffix true declaration

/-! ## Statements -/

/-- Reads the separator behind a statement.  It may be missing before `}`, before `else` and at
the end of the text. -/
def endStatement (ending : Ending) : Step Unit := do
  match ← Step.accept? .separator with
  | some _ => return
  | none =>
      let next ← Step.next?
      if next.all fun token => closesBlock token || token.kind == .keyword .elseWord then return
      else (Rule.fail (.expectedSeparator ending)).step

/-- Reads an `else`, which may stand some lines below. -/
def acceptElse : Step Bool where
  run tokens :=
    match tokens.dropWhile Token.isSeparator with
    | [] => .ok (false, tokens)
    | token :: rest =>
        if token.kind == .keyword .elseWord then .ok (true, rest) else .ok (false, tokens)
  keeps tokens := by
    have whole := List.dropWhile_suffix (l := tokens) Token.isSeparator
    split
    · simp [Result.rest]
    · rename_i token rest start
      rw [start] at whole
      split
      · exact (List.suffix_cons token rest).trans whole
      · simp [Result.rest]

/-- `expression` as a statement. -/
def expressionStatement (expression : Rule Expr) : Rule Stmt :=
  expression.andThen fun value => do
    endStatement .expression
    return .expression value

/-- `let name = expression`, behind `let`. -/
def letDeclaration (expression : Rule Expr) : Step Stmt := do
  let name ← (Rule.expect .identifier .expectedVariableName).step
  match ← Step.accept? (.sign .equal) with
  | some _ =>
      let initializer ← expression.step
      endStatement .declaration
      return .declaration name (some initializer)
  | none =>
      endStatement .declaration
      return .declaration name none

/-- `if condition, do: expression, else: expression`, behind `if`. -/
def choice (expression : Rule Expr) : Step Stmt := do
  let condition ← expression.step
  let _ ← (Rule.expect (.sign .comma) .expectedConditionComma).step
  let _ ← (Rule.expect (.keyword .doWord) .expectedDo).step
  let _ ← (Rule.expect (.sign .colon) .expectedDoColon).step
  let positive ← expression.step
  match ← Step.accept? (.sign .comma) with
  | some _ =>
      let _ ← (Rule.expect (.keyword .elseWord) .expectedElse).step
      let _ ← (Rule.expect (.sign .colon) .expectedElseColon).step
      let negative ← expression.step
      endStatement .conditional
      return .choice condition positive (some negative)
  | none =>
      endStatement .conditional
      return .choice condition positive none

/-- `( expression )` as the condition of a branch, and the separators behind it. -/
def branchCondition (expression : Rule Expr) : Step Expr := do
  let _ ← (Rule.expect (.sign .leftParen) .expectedExpression).step
  let condition ← expression.step
  let _ ← (Rule.expect (.sign .rightParen) .unterminatedCondition).step
  Step.skipSeparators
  return condition

/-- `if (expression) statement else statement`, behind `if`. -/
def branch (expression : Rule Expr) (statement : Clause Stmt) : Course Stmt := do
  let condition ← Course.ofStep (branchCondition expression)
  let positive ← statement.course
  if ← Course.ofStep acceptElse then
    Course.ofStep Step.skipSeparators
    let negative ← statement.course
    return .branch condition positive (some negative)
  else
    return .branch condition positive none

/-- Either form of `if`.  A parenthesis behind it begins a branch. -/
def conditional (expression : Rule Expr) (statement : Clause Stmt) : Course Stmt := do
  let next ← Course.ofStep Step.next?
  if next.any (·.kind == .sign .leftParen) then branch expression statement
  else Course.ofStep (choice expression)

/-- A declaration: a `let` or a statement. -/
def declaration (expression : Rule Expr) (statement : Clause Stmt) : Clause Stmt :=
  Clause.byToken
    (fun token =>
      if token.kind == .keyword .letWord then some (.ofStep (letDeclaration expression))
      else none)
    statement

/-- `{ declarations }`, behind the opening brace. -/
def block (expression : Rule Expr) (statement : Clause Stmt) : Course Stmt := do
  let body ← declarations (declaration expression statement)
  let _ ← Course.ofStep (Rule.expect (.sign .rightBrace) .unterminatedBlock).step
  return .block body

/-- A statement, where `room` levels may be opened.  It opens one of them itself. -/
def statement : (room : Nat) → Clause Stmt
  | 0 => .ofRule (Rule.fail .tooDeeplyNested)
  | room + 1 =>
      let expression := expression room
      let statement := statement room
      Clause.byToken
        (fun token =>
          match token.kind with
          | .sign .leftBrace => some (block expression statement)
          | .keyword .ifWord => some (conditional expression statement)
          | _ => none)
        (.ofRule (expressionStatement expression))

/-! ## Whole programs -/

/-- A parse error as it is reported, where `close` is the token at the end of the text. -/
def ParseError.report (close : Token) (error : ParseError) : CompileError :=
  let token := error.token.getD close
  ⟨token.line, .parse error.fault, token.lexeme⟩

end Grammar

/-- Whether the token marks the end of the text. -/
def Token.isEnd (token : Token) : Bool :=
  token.kind == .endOfText

/-- The token that ends a text.  A list without one ends on the line of its last token. -/
def closingToken (tokens : List Token) : Token :=
  (tokens.find? Token.isEnd).getD
    ⟨.endOfText, "", (tokens.getLast?.map Token.line).getD 1⟩

open Grammar in
/-- The statements that tokens spell, with at most `limit` levels open at a time, and an error for
each declaration that was dropped.  What stands behind the end of the text is not read. -/
def parseWithin (limit : Nat) (tokens : List Token) : List Stmt × List CompileError :=
  let declaration := declaration (expression limit) (statement limit)
  let read := declarationsFrom false declaration (tokens.takeWhile (!·.isEnd))
  (read.2.1, read.1.map (·.report (closingToken tokens)))

/-- How many statements and expressions may be open inside each other. -/
def nestingLimit : Nat := 64

/-- The statements that tokens spell, and an error for each declaration that was dropped. -/
def parse (tokens : List Token) : List Stmt × List CompileError :=
  parseWithin nestingLimit tokens

end Descriptor
