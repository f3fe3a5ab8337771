import Descriptor.Proofs.Cursor.Statement
import Descriptor.Proofs.Grammar.Recovery

/-!
# Programs read with a cursor

From wherever its cursor stands among the tokens, every rule of the machine ends.  It gives back
the levels and the blocks that it has opened, whether it succeeds or fails, and its cursor still
stands at a token.  Run on all tokens, the machine gives the statements and the errors that the
tokens have.
-/

namespace Descriptor

namespace Cursor

open Grammar

/-! ## The end of the text -/

/-- Tokens that end in an end of the text have a first one. -/
theorem exists_find?_of_getLast? {tokens : List Token}
    (ends : tokens.getLast?.any Token.isEnd = true) :
    ∃ close, tokens.find? Token.isEnd = some close := by
  rcases (Option.any_eq_true _ _).mp ends with ⟨last, isLast, isEnd⟩
  cases found : tokens.find? Token.isEnd with
  | some close => exact ⟨close, rfl⟩
  | none =>
      have missed := List.find?_eq_none.mp found last (List.mem_of_getLast? isLast)
      contradiction

/-- The first end of the text is the one that is already there, or the one that was added. -/
theorem find?_closed (tokens : List Token) :
    (closed tokens).find? Token.isEnd = some (closingToken tokens) := by
  unfold closed closingToken
  split
  · rename_i ends
    rcases exists_find?_of_getLast? ends with ⟨close, found⟩
    rw [found]
    rfl
  · rw [List.find?_append]
    cases tokens.find? Token.isEnd <;> rfl

/-- What is read is the same with the end that is added. -/
theorem readTokens_closed (tokens : List Token) :
    readTokens (closed tokens) = readTokens tokens := by
  unfold closed
  split
  · rfl
  · rw [readTokens, readTokens, List.takeWhile_append]
    split
    · rename_i all
      rw [(List.takeWhile_prefix _).eq_of_length all,
        List.takeWhile_cons_of_neg (by simp [Token.isEnd]), List.append_nil]
    · rfl

theorem getLast?_closed (tokens : List Token) :
    (closed tokens).getLast?.any Token.isEnd = true := by
  unfold closed
  split
  · assumption
  · simp [Token.isEnd]

/-- Behind a cursor among the tokens there is always an end of the text. -/
theorem exists_find?_drop_closed {tokens : List Token} {current : Nat}
    (inside : current < (closed tokens).length) :
    ∃ close, ((closed tokens).drop current).find? Token.isEnd = some close := by
  apply exists_find?_of_getLast?
  rw [List.getLast?_drop, if_neg (Nat.not_le.mpr inside)]
  exact getLast?_closed tokens

/-- Tokens in front of and behind a cursor are a site, as long as the text ends behind it. -/
theorem exists_site (front rest : List Token) {close : Token} {turns : Nat}
    (found : rest.find? Token.isEnd = some close) (enough : rest.length ≤ turns) :
    ∃ site : Site, site.input = ⟨(front ++ rest).toArray, turns⟩ ∧ site.front = front ∧
      site.text = readTokens rest ∧ site.close = close := by
  rcases List.find?_eq_some_iff_append.mp found with ⟨isEnd, text, behind, rfl, notEnd⟩
  have noEnd : ∀ token ∈ text, token.isEnd = false := fun token member => by
    simpa using notEnd token member
  have read : readTokens (text ++ close :: behind) = text := by
    rw [readTokens_append noEnd, readTokens, List.takeWhile_cons_of_neg (by simp [isEnd]),
      List.append_nil]
  refine ⟨⟨⟨(front ++ (text ++ close :: behind)).toArray, turns⟩, front, text, close, behind, rfl,
    noEnd, isEnd, ?_⟩, rfl, rfl, read.symm, rfl⟩
  simp only [List.length_append, List.length_cons] at enough
  simp only
  omega

/-! ## Single rules -/

/-- A run that has been brought to an end: the cursor is among the tokens and was not moved back,
all levels and blocks are given back, and every declaration that was tried took at least one
token. -/
structure Settled (tokens : List Token) (registers registers' : Registers) : Prop where
  inside : registers'.current < tokens.length
  forward : registers.current ≤ registers'.current
  depth : registers'.depth = registers.depth
  nesting : registers'.nesting = registers.nesting
  attempts : ∃ tried, registers'.attempts = registers.attempts ++ tried ∧
    ∀ attempt ∈ tried, attempt.start < attempt.stop

/-- The rules of the grammar, with what they give. -/
inductive Production : Type → Type where
  | declaration : Production (Except CompileError Stmt)
  | letDeclaration : Production Stmt
  | statement : Production Stmt
  | block : Production Stmt
  | branch : Production Stmt
  | choice : Production Stmt
  | expressionStatement : Production Stmt
  | endStatement (ending : Ending) : Production Unit
  | expression : Production Expr
  | assignment : Production Expr
  | binary (levels : List Level) : Production Expr
  | unary : Production Expr
  | accesses : Production Expr
  | primary : Production Expr
  | array : Production Expr
  | object : Production Expr

/-- The rule of the machine for a rule of the grammar. -/
def Production.machine (rules : Rules) {α : Type} : Production α → Machine α
  | .declaration => Cursor.declaration rules
  | .letDeclaration => Cursor.letDeclaration rules
  | .statement => rules.statement
  | .block => Cursor.block rules
  | .branch => Cursor.branch rules
  | .choice => Cursor.choice rules
  | .expressionStatement => Cursor.expressionStatement rules
  | .endStatement ending => Cursor.endStatement ending
  | .expression => rules.expression
  | .assignment => Cursor.assignment rules
  | .binary levels => Cursor.binary rules levels
  | .unary => Cursor.unary rules
  | .accesses => Cursor.accesses rules
  | .primary => Cursor.primary rules
  | .array => Cursor.array rules
  | .object => Cursor.object rules

variable {site : Site} {room : Nat} {rules : Rules} {α : Type}

theorem Logged.settled {low : Nat} {unread rest behind : List Token} {errors : List ParseError}
    {attempts : List Attempt} (inside : unread <:+ site.text) (registers : Registers)
    (logged : Logged site low unread errors attempts rest) (forward : behind <:+ rest) :
    Settled site.input.tokens.toList (site.facing unread registers)
      (site.facing behind (registers.log attempts)) where
  inside := by
    have way := (forward.trans logged.inPlace.forward).trans inside
    rw [Array.length_toList]
    exact Site.index_lt_size way
  forward := Site.index_mono (forward.trans logged.inPlace.forward)
  depth := rfl
  nesting := rfl
  attempts := ⟨attempts, rfl, fun attempt member => (logged.consumes attempt member).1⟩

/-- A report changes nothing but the errors. -/
theorem Settled.report {tokens : List Token} {registers registers' : Registers}
    (settled : Settled tokens registers registers') (error : CompileError) :
    Settled tokens registers (registers'.report error) :=
  ⟨settled.inside, settled.forward, settled.depth, settled.nesting, settled.attempts⟩

/-- Whatever follows a course ends. -/
theorem CourseMatches.settled {registers : Registers} {low : Nat} {unread : List Token}
    {outcome : Outcome α} {result : List ParseError × Result α} (inside : unread <:+ site.text)
    (same : CourseMatches site registers low unread outcome result) :
    ∃ result registers', outcome = .ok (result, registers') ∧
      Settled site.input.tokens.toList (site.facing unread registers) registers' := by
  cases same with
  | ok logged => exact ⟨_, _, rfl, logged.settled inside registers (List.suffix_refl _)⟩
  | error logged isAt ahead forward =>
      exact ⟨_, _, rfl, (logged.settled inside registers (forward.trans ahead)).report _⟩

theorem CourseFollows.settled {lead : Nat} {machine : Machine α} {course : Course α}
    (follows : CourseFollows site room lead machine course) {registers : Registers}
    {unread : List Token} (level : nestingLimit - registers.nesting = room)
    (inside : unread <:+ site.text) :
    ∃ result registers',
      machine.run site.input (site.facing unread registers) = .ok (result, registers') ∧
      Settled site.input.tokens.toList (site.facing unread registers) registers' :=
  (follows level inside).settled inside

theorem Follows.settled {machine : Machine α} {step : Step α}
    (follows : Follows site room machine step) {registers : Registers}
    {unread : List Token} (level : nestingLimit - registers.nesting = room)
    (inside : unread <:+ site.text) :
    ∃ result registers',
      machine.run site.input (site.facing unread registers) = .ok (result, registers') ∧
      Settled site.input.tokens.toList (site.facing unread registers) registers' :=
  have asCourse : CourseFollows site room 0 machine (Course.ofStep step) := .ofStep follows
  asCourse.settled level inside

theorem declaration_settled (follow : rules.Follow site room) {registers : Registers}
    {unread : List Token} (level : nestingLimit - registers.nesting = room)
    (inside : unread <:+ site.text) :
    ∃ result registers',
      (declaration rules).run site.input (site.facing unread registers) =
        .ok (result, registers') ∧
      Settled site.input.tokens.toList (site.facing unread registers) registers' := by
  have same := letOrStatement_follows follow level inside
  generalize Course.run _ unread = result,
    ran : (letOrStatement rules).run site.input _ = outcome at same
  cases same with
  | ok logged =>
      exact ⟨_, _, run_declaration_of_ok ran,
        logged.settled inside registers (List.suffix_refl _)⟩
  | error logged isAt ahead forward =>
      have insideLeft := ((forward.trans ahead).trans logged.inPlace.forward).trans inside
      have behind := (resume_suffix (decide (0 < registers.depth)) _).trans (forward.trans ahead)
      rw [← Site.facing_report] at ran
      exact ⟨_, _, run_declaration_of_error insideLeft ran,
        (logged.settled inside registers behind).report _⟩

/-- Every rule ends, wherever the cursor stands in front of the end of the text. -/
theorem Production.settled (production : Production α) (follow : rules.Follow site room)
    {registers : Registers} {unread : List Token}
    (level : nestingLimit - registers.nesting = room) (inside : unread <:+ site.text) :
    ∃ result registers',
      (production.machine rules).run site.input (site.facing unread registers) =
        .ok (result, registers') ∧
      Settled site.input.tokens.toList (site.facing unread registers) registers' := by
  have operands := follow.toFollowOperands
  cases production with
  | declaration => exact declaration_settled follow level inside
  | letDeclaration => exact Follows.settled (letDeclaration_follows operands) level inside
  | statement => exact follow.statement.settled level inside
  | block => exact (block_follows follow).settled level inside
  | branch => exact (branch_follows follow).settled level inside
  | choice => exact Follows.settled (choice_follows operands) level inside
  | expressionStatement =>
      exact Follows.settled (expressionStatement_follows operands) level inside
  | endStatement ending => exact Follows.settled (endStatement_follows ending) level inside
  | expression => exact Follows.settled operands.expression level inside
  | assignment => exact Follows.settled (assignment_follows operands) level inside
  | binary levels => exact Follows.settled (binary_follows operands levels) level inside
  | unary => exact Follows.settled (unary_follows operands) level inside
  | accesses => exact Follows.settled (accesses_follows operands) level inside
  | primary => exact Follows.settled (primary_follows operands) level inside
  | array => exact Follows.settled (array_follows operands) level inside
  | object => exact Follows.settled (object_follows operands) level inside

/-! ## All tokens -/

/-- The machine, run on all tokens, gives the statements that they spell.  Behind the errors that
have been reported before, it reports those of the declarations that it drops. -/
theorem run_program {tokens : List Token} {turns calls : Nat}
    (enoughTurns : (closed tokens).length ≤ turns) (enoughCalls : nestingLimit < calls)
    (reported : List CompileError) :
    ∃ (site : Site) (attempts : List Attempt) (rest : List Token),
      site.input = ⟨(closed tokens).toArray, turns⟩ ∧ site.front = [] ∧
      site.text = readTokens tokens ∧ site.close = closingToken tokens ∧
      Logged site 0 (readTokens tokens) (readAll tokens).1 attempts rest ∧
      (program (rulesWithin calls)).run ⟨(closed tokens).toArray, turns⟩ { errors := reported } =
        .ok (.ok (parse tokens).1,
          site.facing rest (({ errors := reported } : Registers).log attempts)) := by
  rcases exists_site [] (closed tokens) (find?_closed tokens) enoughTurns with
    ⟨site, isInput, isFront, isText, isClose⟩
  rw [readTokens_closed] at isText
  have level : nestingLimit - ({ errors := reported } : Registers).nesting = nestingLimit := rfl
  have start : site.facing (readTokens tokens) { errors := reported } = { errors := reported } := by
    simp [Site.facing, Site.index, isFront, isText]
  have inside : readTokens tokens <:+ site.text := isText ▸ List.suffix_refl site.text
  rcases run_loopFrom_declarationRound (rulesWithin_follow enoughCalls) false level inside rfl
    (Site.length_lt_turns inside) [] with ⟨attempts, logged, ran⟩
  refine ⟨site, attempts, _, isInput, isFront, isText, isClose, logged.weaken (Nat.zero_le _), ?_⟩
  rw [start, isInput] at ran
  exact ran

/-- Every rule of the machine settles, from wherever its cursor stands among the tokens. -/
theorem run_production {tokens : List Token} {turns calls : Nat}
    (enoughTurns : (closed tokens).length ≤ turns) (enoughCalls : nestingLimit < calls)
    (production : Production α) {registers : Registers}
    (inside : registers.current < (closed tokens).length) :
    ∃ result registers', (production.machine (rulesWithin calls)).run
        ⟨(closed tokens).toArray, turns⟩ registers = .ok (result, registers') ∧
      Settled (closed tokens) registers registers' := by
  rcases exists_find?_drop_closed inside with ⟨close, found⟩
  have turnsLeft : ((closed tokens).drop registers.current).length ≤ turns := by
    rw [List.length_drop]
    omega
  rcases exists_site ((closed tokens).take registers.current) _ found turnsLeft with
    ⟨site, isInput, isFront, -, -⟩
  rw [List.take_append_drop] at isInput
  have start : site.facing site.text registers = registers := by
    have here : site.index site.text = registers.current := by
      rw [Site.index, isFront, Nat.sub_self, Nat.add_zero, List.length_take,
        Nat.min_eq_left (Nat.le_of_lt inside)]
    rw [Site.facing, here]
  have enough : nestingLimit - registers.nesting < calls := by omega
  have settled := production.settled (rulesWithin_follow enough) rfl (List.suffix_refl site.text)
  rw [start, isInput] at settled
  exact settled

end Cursor

open Cursor

/-- Read with a cursor, all tokens give the statements and the errors that they have.  Whatever
the tokens are and wherever the end of the text stands among them, no rule looks behind the last
token, runs on or keeps a level or a block for itself, and every declaration that is tried takes at
least one token. -/
theorem cursor_settles {tokens : List Token} {turns calls : Nat}
    (enoughTurns : (closed tokens).length ≤ turns) (enoughCalls : nestingLimit < calls) :
    (∃ registers, (program (rulesWithin calls)).run ⟨(closed tokens).toArray, turns⟩ {} =
          .ok (.ok (parse tokens).1, registers) ∧
        registers.errors = (parse tokens).2 ∧ Settled (closed tokens) {} registers) ∧
      ∀ {α : Type} (production : Production α) (registers : Registers),
        registers.current < (closed tokens).length →
          ∃ result registers', (production.machine (rulesWithin calls)).run
              ⟨(closed tokens).toArray, turns⟩ registers = .ok (result, registers') ∧
            Settled (closed tokens) registers registers' := by
  constructor
  · rcases run_program enoughTurns enoughCalls [] with
      ⟨site, attempts, rest, isInput, isFront, isText, isClose, logged, ran⟩
    refine ⟨_, ran, ?_, ?_⟩
    · rw [parse_eq, ← isClose, ← logged.errors_eq]
      exact List.nil_append _
    · have inside : readTokens tokens <:+ site.text := isText ▸ List.suffix_refl site.text
      have settled := logged.settled inside {} (List.suffix_refl rest)
      have start : site.facing (readTokens tokens) {} = {} := by
        simp [Site.facing, Site.index, isFront, isText]
      rw [start, isInput] at settled
      exact settled
  · intro α production registers inside
    exact run_production enoughTurns enoughCalls production inside

/-- A `let` without a name in a block that the end of the text leaves open, with a brace behind the
end.  The second rule starts in front of the `let`, with all but one level open. -/
theorem cursor_settles_unclosed :
    let tokens : List Token := [⟨.sign .leftBrace, "\x7b", 1⟩, ⟨.keyword .letWord, "let", 1⟩,
      ⟨.endOfText, "", 2⟩, ⟨.sign .rightBrace, "\x7d", 2⟩]
    let start : Registers := { current := 1, depth := 1, nesting := 63 }
    (closed tokens).length ≤ 5 ∧ nestingLimit < 65 ∧ start.current < (closed tokens).length ∧
      (∃ registers, (program (rulesWithin 65)).run ⟨(closed tokens).toArray, 5⟩ {} =
          .ok (.ok (parse tokens).1, registers) ∧
        registers.errors = (parse tokens).2 ∧ Settled (closed tokens) {} registers) ∧
      ∃ result registers', (Production.block.machine (rulesWithin 65)).run
          ⟨(closed tokens).toArray, 5⟩ start = .ok (result, registers') ∧
        Settled (closed tokens) start registers' := by
  intro tokens start
  have enoughTurns : (closed tokens).length ≤ 5 := by decide
  have enoughCalls : nestingLimit < 65 := by decide
  have inside : start.current < (closed tokens).length := by decide
  have settles := cursor_settles enoughTurns enoughCalls
  exact ⟨enoughTurns, enoughCalls, inside, settles.1, settles.2 .block start inside⟩

end Descriptor
