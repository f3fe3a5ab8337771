import Descriptor.Proofs.Cursor.Program

/-!
# What stands behind the end of the text

The machine looks every token up by its index, and nothing in its types keeps it from looking
behind the first end of the text when there are more tokens.  Two runs are compared here, one on
some tokens and one on the same tokens with more behind them.  No rule asks how many tokens there
are, so the two runs differ only if the first one looks behind its last token.  On a text with
nothing but its end behind it no rule does, so what stands behind that end changes no run.

A rule that only puts others together has nothing to do with tokens itself: once it is unfolded, its
instance of `Machine.Local` is found from those of its parts.
-/

namespace Descriptor

namespace Cursor

variable {α β : Type}

/-- The tokens of one input are the first ones of the other, and loops have as many turns. -/
structure Input.Begins (shorter longer : Input) : Prop where
  tokens : shorter.tokens.toList <+: longer.tokens.toList
  turns : longer.turns = shorter.turns

/-- A machine that looks at single tokens only.  Unless it looks behind the last one, it runs the
same with more tokens behind it. -/
class Machine.Local (machine : Machine α) : Prop where
  run_eq {shorter longer : Input} {registers : Registers} (begins : shorter.Begins longer)
    (inBounds : machine.run shorter registers ≠ .error .outOfBounds) :
    machine.run longer registers = machine.run shorter registers

/-- What a run comes to among the tokens of the shorter input, it comes to with more behind them. -/
theorem Machine.Local.run_eq_ok {machine : Machine α} (isLocal : machine.Local)
    {shorter longer : Input} {registers : Registers} (begins : shorter.Begins longer)
    {outcome : Except CompileError α × Registers}
    (ran : machine.run shorter registers = .ok outcome) :
    machine.run longer registers = .ok outcome := by
  rw [isLocal.run_eq begins (by simp [ran]), ran]

open Machine

/-! ## One rule after another -/

instance (a : α) : (pure a : Machine α).Local :=
  ⟨fun _ _ => rfl⟩

theorem bind_local {machine : Machine α} {next : α → Machine β} (first : machine.Local)
    (second : ∀ a, (next a).Local) : (machine >>= next).Local where
  run_eq {shorter longer registers} begins inBounds := by
    rw [run_bind] at inBounds ⊢
    have inBoundsFirst : machine.run shorter registers ≠ .error .outOfBounds := by
      intro halted
      rw [halted] at inBounds
      contradiction
    rw [run_bind, first.run_eq begins inBoundsFirst]
    cases ran : machine.run shorter registers with
    | error halt => rfl
    | ok outcome =>
        rcases outcome with ⟨error | a, registers'⟩
        · rfl
        · rw [ran] at inBounds
          exact (second a).run_eq begins inBounds

instance (machine : Machine α) (next : α → Machine β) [first : machine.Local]
    [second : ∀ a, (next a).Local] : (machine >>= next).Local :=
  bind_local first second

instance (condition : Prop) [Decidable condition] (positive negative : Machine α)
    [positive.Local] [negative.Local] : (if condition then positive else negative).Local := by
  split <;> infer_instance

instance (why : Halt) : (halt why : Machine α).Local :=
  ⟨fun _ _ => rfl⟩

instance : registers.Local :=
  ⟨fun _ _ => rfl⟩

instance (change : Registers → Registers) : (modify change).Local :=
  ⟨fun _ _ => rfl⟩

instance (result : Except CompileError α) : (ofResult result).Local :=
  ⟨fun _ _ => rfl⟩

instance (rule : Machine α) [rule.Local] : (catching rule).Local where
  run_eq {shorter longer registers} begins inBounds := by
    have same : rule.run longer registers = rule.run shorter registers := by
      apply Local.run_eq begins
      intro halted
      simp only [catching, halted] at inBounds
      contradiction
    simp only [catching, same]

/-- The only rule that looks at the tokens. -/
instance (index : Nat) : (tokenAt index).Local where
  run_eq {shorter longer registers} begins inBounds := by
    simp only [tokenAt, ← Array.getElem?_toList] at inBounds ⊢
    cases found : shorter.tokens.toList[index]? with
    | none => simp [found] at inBounds
    | some token =>
        have inside := (List.getElem?_eq_some_iff.mp found).1
        rcases begins.tokens with ⟨behind, whole⟩
        rw [← whole, List.getElem?_append_left inside, found]

theorem loopFrom_local (body : α → Machine (α ⊕ β)) [∀ a, (body a).Local] (turns : Nat) (a : α) :
    (loopFrom body turns a).Local := by
  induction turns generalizing a with
  | zero => exact inferInstanceAs (halt .outOfTurns).Local
  | succ turns ih =>
      unfold loopFrom
      refine bind_local inferInstance fun next => ?_
      cases next with
      | inl a => exact ih a
      | inr b => exact inferInstanceAs (pure b : Machine β).Local

instance (body : α → Machine (α ⊕ β)) (a : α) [∀ a, (body a).Local] : (loop body a).Local where
  run_eq begins inBounds := by
    simp only [loop, begins.turns] at inBounds ⊢
    exact (loopFrom_local body _ a).run_eq begins inBounds

/-! ## Single tokens -/

instance : peek.Local := by
  unfold peek
  infer_instance

instance (kind : Kind) : (check kind).Local := by
  unfold check
  infer_instance

instance : isAtEnd.Local := by
  unfold isAtEnd
  infer_instance

instance (index : Nat) : (moveTo index).Local := by
  unfold moveTo
  infer_instance

instance : moveOn.Local := by
  unfold moveOn
  infer_instance

instance : advance.Local := by
  unfold advance
  infer_instance

instance (fault : ParseFault) (token : Token) : (failAt fault token : Machine α).Local := by
  unfold failAt
  infer_instance

instance (fault : ParseFault) : (failAtPeek fault : Machine α).Local := by
  unfold failAtPeek
  infer_instance

instance (kind : Kind) : (accept kind).Local := by
  unfold accept
  infer_instance

instance (kind : Kind) (fault : ParseFault) : (consume kind fault).Local := by
  unfold consume
  infer_instance

instance (u : Unit) : (skipSeparator u).Local := by
  unfold skipSeparator
  infer_instance

instance : skipSeparators.Local := by
  unfold skipSeparators
  infer_instance

instance (ahead : Nat) : (lookAhead ahead).Local := by
  unfold lookAhead
  infer_instance

instance : acceptElse.Local := by
  unfold acceptElse
  infer_instance

/-! ## Levels -/

instance (rule : Machine α) [rule.Local] : (nested rule).Local := by
  unfold nested
  infer_instance

/-- The rules that open a level look at single tokens only. -/
class Rules.Local (rules : Rules) : Prop where
  statement : rules.statement.Local
  expression : rules.expression.Local
  unary : rules.unary.Local

instance (rules : Rules) [rules.Local] : rules.statement.Local :=
  Rules.Local.statement

instance (rules : Rules) [rules.Local] : rules.expression.Local :=
  Rules.Local.expression

instance (rules : Rules) [rules.Local] : rules.unary.Local :=
  Rules.Local.unary

/-! ## Repetition and selection -/

instance (item : Machine (α × Bool)) (closing : Kind) (read : List α) [item.Local] :
    (itemRound item closing read).Local := by
  unfold itemRound
  infer_instance

instance (item : Machine (α × Bool)) (closing : Kind) [item.Local] :
    (items item closing).Local := by
  unfold items
  infer_instance

theorem byToken_local {select : Token → Option (Machine α)}
    (selected : ∀ {token next}, select token = some next → next.Local) (otherwise : Machine α)
    [otherwise.Local] : (byToken select otherwise).Local := by
  unfold byToken
  refine bind_local inferInstance fun token => ?_
  cases found : select token with
  | none => infer_instance
  | some next =>
      have := selected found
      exact inferInstanceAs (advance >>= fun _ => next).Local

theorem extend_local (select : Token → Option (α → Machine α))
    (selected : ∀ {token next}, select token = some next → ∀ a, (next a).Local) (a : α) :
    (extend select a).Local := by
  unfold extend
  have (a : α) : (extendRound select a).Local := by
    unfold extendRound
    refine bind_local inferInstance fun token => ?_
    split
    · rename_i next found
      have := selected found
      infer_instance
    · infer_instance
  infer_instance

section Rules

variable (rules : Rules) [rules.Local]

/-! ## Expressions -/

instance : (parenthesized rules).Local := by
  unfold parenthesized
  infer_instance

instance : (arrayElement rules).Local := by
  unfold arrayElement
  infer_instance

instance : (array rules).Local := by
  unfold array
  infer_instance

instance : (objectProperty rules).Local := by
  unfold objectProperty
  infer_instance

instance : (object rules).Local := by
  unfold object
  infer_instance

instance : leaf.Local :=
  byToken_local (fun found => by
    rcases Option.map_eq_some_iff.mp found with ⟨expression, -, rfl⟩
    infer_instance) _

instance : (primary rules).Local := by
  unfold primary
  infer_instance

theorem access?_local {token : Token} {next : Expr → Machine Expr}
    (found : access? rules token = some next) (left : Expr) : (next left).Local := by
  unfold access? at found
  split at found <;> cases found <;> infer_instance

instance : (accesses rules).Local := by
  unfold accesses
  have := extend_local (access? rules) (access?_local rules)
  infer_instance

instance : (unary rules).Local :=
  byToken_local (fun found => by
    rcases Option.map_eq_some_iff.mp found with ⟨operator, -, rfl⟩
    infer_instance) _

theorem rightOperand?_local (accepted : List BinaryOperator) (operand : Machine Expr)
    [operand.Local] {token : Token} {next : Expr → Machine Expr}
    (found : rightOperand? accepted operand token = some next) (left : Expr) :
    (next left).Local := by
  rcases Option.map_eq_some_iff.mp found with ⟨operator, -, rfl⟩
  infer_instance

theorem binary_local (levels : List Level) : (binary rules levels).Local := by
  induction levels with
  | nil => exact inferInstanceAs (unary rules).Local
  | cons level tighter ih =>
      unfold binary
      have := extend_local (rightOperand? (operators level) (binary rules tighter))
        (rightOperand?_local _ _)
      infer_instance

instance : (assignment rules).Local := by
  unfold assignment
  refine bind_local (binary_local rules Level.all) fun target => ?_
  refine bind_local inferInstance fun assigns => ?_
  split
  · refine bind_local inferInstance fun equals => ?_
    refine bind_local inferInstance fun value => ?_
    split <;> infer_instance
  · infer_instance

/-! ## Statements -/

instance (ending : Ending) : (endStatement ending).Local := by
  unfold endStatement
  infer_instance

instance : (expressionStatement rules).Local := by
  unfold expressionStatement
  infer_instance

instance : (letDeclaration rules).Local := by
  unfold letDeclaration
  infer_instance

instance : (choice rules).Local := by
  unfold choice
  -- The chain is too long for one instance.
  refine bind_local inferInstance fun condition => ?_
  refine bind_local inferInstance fun comma => ?_
  refine bind_local inferInstance fun doToken => ?_
  refine bind_local inferInstance fun colon => ?_
  infer_instance

instance : (branchCondition rules).Local := by
  unfold branchCondition
  infer_instance

instance : (branch rules).Local := by
  unfold branch
  infer_instance

instance : (conditional rules).Local := by
  unfold conditional
  infer_instance

instance (skipped : Token) : (skipRound skipped).Local := by
  unfold skipRound
  infer_instance

instance : skipLine.Local := by
  unfold skipLine
  infer_instance

instance : synchronize.Local := by
  unfold synchronize
  infer_instance

instance : (letOrStatement rules).Local := by
  unfold letOrStatement
  infer_instance

instance : (declaration rules).Local := by
  unfold declaration
  refine bind_local inferInstance fun result => ?_
  split <;> infer_instance

instance (start : Nat) (error? : Option CompileError) : (record start error?).Local := by
  unfold record
  infer_instance

instance : (attempt rules).Local := by
  unfold attempt
  refine bind_local inferInstance fun registers => ?_
  refine bind_local inferInstance fun result => ?_
  split <;> infer_instance

instance (inBlock : Bool) (kept : List Stmt) : (declarationRound rules inBlock kept).Local := by
  unfold declarationRound
  infer_instance

instance (inBlock : Bool) : (declarations rules inBlock).Local := by
  unfold declarations
  infer_instance

instance : (blockBody rules).Local := by
  unfold blockBody
  infer_instance

instance : (block rules).Local := by
  unfold block
  infer_instance

instance : (statement rules).Local := by
  unfold statement
  infer_instance

/-! ## Whole programs -/

instance : (program rules).Local := by
  unfold program
  infer_instance

/-- Every rule looks at single tokens only. -/
theorem Production.machine_local (production : Production α) :
    (production.machine rules).Local := by
  cases production with
  | binary levels => exact binary_local rules levels
  | _ => unfold Production.machine; infer_instance

end Rules

theorem rulesWithin_local (calls : Nat) : (rulesWithin calls).Local := by
  induction calls with
  | zero =>
      unfold rulesWithin
      exact ⟨inferInstance, inferInstance, inferInstance⟩
  | succ calls ih =>
      unfold rulesWithin
      exact ⟨inferInstance, inferInstance, inferInstance⟩

/-! ## Tokens behind the end of the text -/

theorem prefix_closed (tokens : List Token) : tokens <+: closed tokens := by
  unfold closed
  split
  · exact List.prefix_refl tokens
  · exact List.prefix_append tokens _

/-- Nothing is added behind an end of the text that is already there. -/
theorem closed_append_end (text : List Token) {close : Token} (isEnd : close.isEnd = true) :
    closed (text ++ [close]) = text ++ [close] := by
  simp [closed, isEnd]

theorem length_closed_append_end (text : List Token) {close : Token} (isEnd : close.isEnd = true) :
    (closed (text ++ [close])).length = text.length + 1 := by
  rw [closed_append_end text isEnd, List.length_append, List.length_singleton]

/-- A text without an end is closed on the line of its last token. -/
theorem closed_of_noEnd {text : List Token} (noEnd : ∀ token ∈ text, token.isEnd = false) :
    closed text = text ++ [⟨.endOfText, "", (text.getLast?.map Token.line).getD 1⟩] := by
  unfold closed
  rw [if_neg]
  intro ends
  rcases (Option.any_eq_true _ _).mp ends with ⟨last, isLast, isEnd⟩
  rw [noEnd last (List.mem_of_getLast? isLast)] at isEnd
  contradiction

/-- A text with its end stands in front of whatever more is read into the array. -/
theorem begins_closed (text : List Token) (close : Token) (behind : List Token) (turns : Nat) :
    Input.Begins ⟨(text ++ [close]).toArray, turns⟩
      ⟨(closed (text ++ close :: behind)).toArray, turns⟩ where
  tokens := by
    have front : text ++ [close] <+: text ++ close :: behind := ⟨behind, by simp⟩
    exact front.trans (prefix_closed _)
  turns := rfl

/-- The machine, run on all tokens, gives the statements and the errors that they have. -/
theorem exists_run_program {tokens : List Token} {turns calls : Nat}
    (enoughTurns : (closed tokens).length ≤ turns) (enoughCalls : nestingLimit < calls) :
    ∃ registers, (program (rulesWithin calls)).run ⟨(closed tokens).toArray, turns⟩ {} =
        .ok (.ok (parse tokens).1, registers) ∧ registers.errors = (parse tokens).2 := by
  rcases run_program enoughTurns enoughCalls [] with
    ⟨site, attempts, rest, -, -, -, isClose, logged, ran⟩
  refine ⟨_, ran, ?_⟩
  rw [parse_eq, ← isClose, ← logged.errors_eq]
  exact List.nil_append _

/-- What the machine gives for all tokens is what they are parsed to. -/
theorem parse_eq_of_run {tokens : List Token} {turns calls : Nat} {statements : List Stmt}
    {registers : Registers} (enoughTurns : (closed tokens).length ≤ turns)
    (enoughCalls : nestingLimit < calls)
    (ran : (program (rulesWithin calls)).run ⟨(closed tokens).toArray, turns⟩ {} =
      .ok (.ok statements, registers)) :
    parse tokens = (statements, registers.errors) := by
  rcases exists_run_program enoughTurns enoughCalls with ⟨registers', ran', errors⟩
  rw [ran] at ran'
  simp only [Except.ok.injEq, Prod.mk.injEq] at ran'
  rcases ran' with ⟨rfl, rfl⟩
  exact Prod.ext rfl errors.symm

/-- An end of the text that is missing may as well be there. -/
theorem parse_closed (tokens : List Token) : parse (closed tokens) = parse tokens := by
  have enoughCalls := Nat.lt_succ_self nestingLimit
  have alone : closed (closed tokens) = closed tokens := if_pos (getLast?_closed tokens)
  rcases exists_run_program (Nat.le_refl (closed tokens).length) enoughCalls with
    ⟨registers, ran, errors⟩
  rw [← alone] at ran
  rw [parse_eq_of_run (Nat.le_refl _) enoughCalls ran, errors]

section Behind

variable {text : List Token} {close : Token} {turns calls : Nat}

/-- Every rule ends at the end of the text at the latest, whatever stands behind it. -/
theorem run_production_behind (behind : List Token) (isEnd : close.isEnd = true)
    (enoughTurns : text.length < turns) (enoughCalls : nestingLimit < calls)
    (production : Production α) {registers : Registers}
    (inside : registers.current ≤ text.length) :
    ∃ result registers', registers'.current ≤ text.length ∧
      (production.machine (rulesWithin calls)).run ⟨(text ++ [close]).toArray, turns⟩ registers =
        .ok (result, registers') ∧
      (production.machine (rulesWithin calls)).run
          ⟨(closed (text ++ close :: behind)).toArray, turns⟩ registers =
        .ok (result, registers') := by
  have length := length_closed_append_end text isEnd
  rcases run_production (length.trans_le enoughTurns) enoughCalls production
      ((Nat.lt_succ_of_le inside).trans_eq length.symm) with ⟨result, registers', ran, settled⟩
  have stays := settled.inside
  rw [length] at stays
  rw [closed_append_end text isEnd] at ran
  have := rulesWithin_local calls
  exact ⟨result, registers', Nat.le_of_lt_succ stays, ran,
    (production.machine_local _).run_eq_ok (begins_closed text close behind turns) ran⟩

/-- The whole text is read the same, whatever stands behind its end. -/
theorem run_program_behind (behind : List Token) (isEnd : close.isEnd = true)
    (enoughTurns : text.length < turns) (enoughCalls : nestingLimit < calls) :
    ∃ registers,
      (program (rulesWithin calls)).run
          ⟨(closed (text ++ close :: behind)).toArray, turns⟩ {} =
        .ok (.ok (parse (text ++ [close])).1, registers) ∧
      registers.errors = (parse (text ++ [close])).2 := by
  have length := length_closed_append_end text isEnd
  rcases exists_run_program (length.trans_le enoughTurns) enoughCalls with ⟨registers, ran, errors⟩
  rw [closed_append_end text isEnd] at ran
  have := rulesWithin_local calls
  have isLocal : (program (rulesWithin calls)).Local := inferInstance
  exact ⟨registers, isLocal.run_eq_ok (begins_closed text close behind turns) ran, errors⟩

/-- The statements and the errors are those of the text with its end alone. -/
theorem parse_append_behind (text behind : List Token) (isEnd : close.isEnd = true) :
    parse (text ++ close :: behind) = parse (text ++ [close]) := by
  have turnsLeft : text.length < (closed (text ++ close :: behind)).length := by
    refine Nat.lt_of_lt_of_le ?_ (prefix_closed _).length_le
    simp
  have enoughCalls := Nat.lt_succ_self nestingLimit
  rcases run_program_behind behind isEnd turnsLeft enoughCalls with ⟨registers, ran, errors⟩
  rw [parse_eq_of_run (Nat.le_refl _) enoughCalls ran, errors]

end Behind

end Cursor

open Cursor

/-- Nothing behind an end of the text is read.  Whatever stands behind it, each rule of the machine
does the same as with nothing behind it, wherever it begins in front of the end, and does not get
behind the end; all tokens give the same statements and the same errors.  A text without an end is
read like the text with one behind it, on the line of its last token. -/
theorem nothing_behind_end_is_read {text : List Token} {close : Token} (behind : List Token)
    (isEnd : close.isEnd = true) {turns calls : Nat} (enoughTurns : text.length < turns)
    (enoughCalls : nestingLimit < calls) :
    (∀ {α : Type} (production : Production α) (registers : Registers),
        registers.current ≤ text.length →
          ∃ result registers', registers'.current ≤ text.length ∧
            (production.machine (rulesWithin calls)).run
                ⟨(text ++ [close]).toArray, turns⟩ registers = .ok (result, registers') ∧
            (production.machine (rulesWithin calls)).run
                ⟨(closed (text ++ close :: behind)).toArray, turns⟩ registers =
              .ok (result, registers')) ∧
      (∃ registers,
        (program (rulesWithin calls)).run
            ⟨(closed (text ++ close :: behind)).toArray, turns⟩ {} =
          .ok (.ok (parse (text ++ [close])).1, registers) ∧
        registers.errors = (parse (text ++ [close])).2) ∧
      parse (text ++ close :: behind) = parse (text ++ [close]) ∧
      ((∀ token ∈ text, token.isEnd = false) →
        closed text = text ++ [⟨.endOfText, "", (text.getLast?.map Token.line).getD 1⟩] ∧
        parse text =
          parse (text ++ [⟨.endOfText, "", (text.getLast?.map Token.line).getD 1⟩])) := by
  refine ⟨?_, run_program_behind behind isEnd enoughTurns enoughCalls,
    parse_append_behind text behind isEnd, ?_⟩
  · intro α production registers inside
    exact run_production_behind behind isEnd enoughTurns enoughCalls production inside
  · intro noEnd
    have added := closed_of_noEnd noEnd
    refine ⟨added, ?_⟩
    rw [← added, parse_closed]

/-- An `if` without `else`, and behind the end of the text an `else` and another end.  The rule
begins at the `if`, with two levels left. -/
theorem nothing_behind_end_is_read_else :
    let text : List Token := [⟨.keyword .ifWord, "if", 1⟩, ⟨.sign .leftParen, "(", 1⟩,
      ⟨.keyword .true, "true", 1⟩, ⟨.sign .rightParen, ")", 1⟩, ⟨.sign .leftBrace, "\x7b", 1⟩,
      ⟨.sign .rightBrace, "\x7d", 1⟩, ⟨.separator, "\n", 1⟩]
    let close : Token := ⟨.endOfText, "", 2⟩
    let behind : List Token :=
      [⟨.keyword .elseWord, "else", 2⟩, ⟨.sign .leftBrace, "\x7b", 2⟩, close]
    let start : Registers := { nesting := 62 }
    close.isEnd = true ∧ text.length < 8 ∧ nestingLimit < 65 ∧
      (∃ result registers', registers'.current ≤ text.length ∧
        (Production.statement.machine (rulesWithin 65)).run
            ⟨(text ++ [close]).toArray, 8⟩ start = .ok (result, registers') ∧
        (Production.statement.machine (rulesWithin 65)).run
            ⟨(closed (text ++ close :: behind)).toArray, 8⟩ start = .ok (result, registers')) ∧
      parse (text ++ close :: behind) = parse (text ++ [close]) ∧
      parse text = parse (text ++ [⟨.endOfText, "", 1⟩]) := by
  intro text close behind start
  have isEnd : close.isEnd = true := by decide
  have enoughTurns : text.length < 8 := by decide
  have enoughCalls : nestingLimit < 65 := by decide
  have noEnd : ∀ token ∈ text, token.isEnd = false := by decide
  have inside : start.current ≤ text.length := by decide
  have unread := nothing_behind_end_is_read behind isEnd enoughTurns enoughCalls
  exact ⟨isEnd, enoughTurns, enoughCalls, unread.1 .statement start inside, unread.2.2.1,
    (unread.2.2.2 noEnd).2⟩

end Descriptor
