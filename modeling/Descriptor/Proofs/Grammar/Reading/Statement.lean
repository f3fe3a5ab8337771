import Descriptor.Proofs.Grammar.Opening
import Descriptor.Proofs.Grammar.Reading.Expression
import Descriptor.Proofs.Grammar.Spelling

/-!
# What is read as a program

The statements that are kept are canonical, and they are written by the tokens that were read.
Between them stand separators, and where declarations were dropped whatever was skipped.  So the
tokens of the statements are among the tokens before the end of the text, in their order, and
without errors nothing else is left out but separators and last commas.
-/

namespace Descriptor

/-- The statement may be built in front of `rest` where `room` levels can be opened: it is
canonical, and no `else` that it could take stands behind it. -/
structure Stmt.Fits (room : Nat) (statement : Stmt) (rest : List Token) : Prop where
  canonical : statement.Canonical
  depth : statement.depth ≤ room
  noElse : statement.takesElse = true → elseFollows rest = false

namespace Grammar

/-! ## Gaps and errors -/

/-- Gaps that may hold separators and, if there are errors, anything at all. -/
structure Admits (Gap : List Token → Prop) (errors : List ParseError) : Prop where
  separators : ∀ gap, Separators gap → Gap gap
  dropped : errors ≠ [] → ∀ gap, Gap gap

namespace Admits

variable {Gap : List Token → Prop} {first later : List ParseError}

theorem left (admits : Admits Gap (first ++ later)) : Admits Gap first :=
  ⟨admits.separators, fun some => admits.dropped (List.append_ne_nil_of_left_ne_nil some later)⟩

theorem right (admits : Admits Gap (first ++ later)) : Admits Gap later :=
  ⟨admits.separators, fun some => admits.dropped (List.append_ne_nil_of_right_ne_nil first some)⟩

end Admits

/-- A statement that may be built, and the tokens that write it. -/
structure DeclarationRead (room : Nat) (errors : List ParseError) (statement : Stmt)
    (used rest : List Token) : Prop extends Stmt.Fits room statement rest where
  written : ∀ Gap, Admits Gap errors → statement.Written Gap used rest

/-- A statement that is read where no `let` may stand. -/
structure StatementRead (room : Nat) (errors : List ParseError) (statement : Stmt)
    (used rest : List Token) : Prop extends DeclarationRead room errors statement used rest where
  notDeclaration : statement.isDeclaration = false

/-- Whatever the clause reads is a declaration of at most the given depth. -/
def Clause.ReadsDeclaration (clause : Clause Stmt) (room : Nat) : Prop :=
  ∀ ⦃tokens errors statement rest⦄, clause.course.run tokens = (errors, .ok (statement, rest)) →
    ∃ used, tokens = used ++ rest ∧ DeclarationRead room errors statement used rest

/-- Whatever the clause reads is a statement of at most the given depth. -/
def Clause.Reads (clause : Clause Stmt) (room : Nat) : Prop :=
  ∀ ⦃tokens errors statement rest⦄, clause.course.run tokens = (errors, .ok (statement, rest)) →
    ∃ used, tokens = used ++ rest ∧ StatementRead room errors statement used rest

/-! ## Statements without statements inside -/

section Rules

variable {expression : Rule Expr} {room : Nat} (reads : expression.Reads room 0)
include reads

theorem expressionStatement_reads {tokens rest : List Token} {statement : Stmt}
    (done : (expressionStatement expression).step.run tokens = .ok (statement, rest)) :
    ∃ used, tokens = used ++ rest ∧ StatementRead (room + 1) [] statement used rest := by
  simp only [expressionStatement, Rule.run_andThen_eq_ok_iff, Step.run_bind_eq_ok_iff,
    run_endStatement_eq_ok_iff, Step.run_pure_eq_ok_iff] at done
  rcases done with ⟨value, _, ran, _, _, ⟨terminator, terminated, rfl⟩, rfl, rfl⟩
  rcases reads ran with ⟨used, rfl, read⟩
  refine ⟨used ++ terminator, by simp, ?_⟩
  exact {
    written := fun _ _ => .expression read.written terminated
    canonical := read.canonical
    depth := Nat.succ_le_succ read.depth
    noElse := by simp [Stmt.takesElse]
    notDeclaration := rfl }

theorem letDeclaration_reads {letToken : Token} {tokens rest : List Token} {statement : Stmt}
    (isLet : letToken.kind = .keyword .letWord)
    (done : (letDeclaration expression).run tokens = .ok (statement, rest)) :
    ∃ used, letToken :: tokens = used ++ rest ∧ DeclarationRead room [] statement used rest := by
  simp only [letDeclaration, Step.run_bind_eq_ok_iff, Rule.run_expect_eq_ok_iff] at done
  rcases done with ⟨name, _, ⟨isName, rfl⟩, accepted, _, accepting, finishing⟩
  rcases Step.run_accept?_eq_ok_iff.mp accepting with
    ⟨equals, rfl, isEquals, rfl⟩ | ⟨rfl, -, rfl⟩
  · simp only [Step.run_bind_eq_ok_iff, run_endStatement_eq_ok_iff,
      Step.run_pure_eq_ok_iff] at finishing
    rcases finishing with ⟨initializer, _, ran, _, _, ⟨terminator, terminated, rfl⟩, rfl, rfl⟩
    rcases reads ran with ⟨used, rfl, read⟩
    refine ⟨letToken :: name :: equals :: (used ++ terminator), by simp, ?_⟩
    exact {
      written := fun _ _ => .initialized isLet isEquals read.written terminated
      canonical := ⟨isName, read.canonical⟩
      depth := read.depth
      noElse := by simp [Stmt.takesElse] }
  · simp only [Step.run_bind_eq_ok_iff, run_endStatement_eq_ok_iff,
      Step.run_pure_eq_ok_iff] at finishing
    rcases finishing with ⟨_, _, ⟨terminator, terminated, rfl⟩, rfl, rfl⟩
    refine ⟨letToken :: name :: terminator, rfl, ?_⟩
    exact {
      written := fun _ _ => .declaration isLet terminated
      canonical := isName
      depth := Nat.zero_le room
      noElse := by simp [Stmt.takesElse] }

theorem choice_reads {ifToken : Token} {tokens rest : List Token} {statement : Stmt}
    (isIf : ifToken.kind = .keyword .ifWord)
    (notParenthesis : tokens.head?.any (·.kind == .sign .leftParen) = false)
    (done : (choice expression).run tokens = .ok (statement, rest)) :
    ∃ used, ifToken :: tokens = used ++ rest ∧
      StatementRead (room + 1) [] statement used rest := by
  simp only [choice, Step.run_bind_eq_ok_iff, Rule.run_expect_eq_ok_iff] at done
  obtain ⟨condition, _, conditionRan, comma, _, ⟨isComma, rfl⟩, doToken, _, ⟨isDo, rfl⟩,
    colon, _, ⟨isColon, rfl⟩, positive, _, positiveRan, accepted, _, accepting, finishing⟩ := done
  rcases reads conditionRan with ⟨conditionUsed, rfl, conditionRead⟩
  rcases reads positiveRan with ⟨positiveUsed, rfl, positiveRead⟩
  have opensOther : condition.opensParenthesis = false := by
    obtain ⟨token, _, rfl, opens⟩ :=
      condition.exists_opens conditionUsed conditionRead.written conditionRead.canonical
    rw [opens.parenthesis]
    simpa using notParenthesis
  rcases Step.run_accept?_eq_ok_iff.mp accepting with
    ⟨secondComma, rfl, isSecondComma, rfl⟩ | ⟨rfl, -, rfl⟩
  · simp only [Step.run_bind_eq_ok_iff, Rule.run_expect_eq_ok_iff, run_endStatement_eq_ok_iff,
      Step.run_pure_eq_ok_iff] at finishing
    obtain ⟨elseToken, _, ⟨isElse, rfl⟩, secondColon, _, ⟨isSecondColon, rfl⟩, negative, _,
      negativeRan, _, _, ⟨terminator, terminated, rfl⟩, rfl, rfl⟩ := finishing
    rcases reads negativeRan with ⟨negativeUsed, rfl, negativeRead⟩
    refine ⟨ifToken :: (conditionUsed ++ comma :: doToken :: colon :: (positiveUsed ++
      secondComma :: elseToken :: secondColon :: (negativeUsed ++ terminator))), by simp, ?_⟩
    exact {
      written := fun _ _ => .choiceElse isIf conditionRead.written isComma isDo isColon
        positiveRead.written isSecondComma isElse isSecondColon negativeRead.written terminated
      canonical := ⟨opensOther, conditionRead.canonical, positiveRead.canonical,
        negativeRead.canonical⟩
      depth := Nat.succ_le_succ
        (max_lt (max_lt conditionRead.depth positiveRead.depth) negativeRead.depth)
      noElse := by simp [Stmt.takesElse]
      notDeclaration := rfl }
  · simp only [Step.run_bind_eq_ok_iff, run_endStatement_eq_ok_iff,
      Step.run_pure_eq_ok_iff] at finishing
    rcases finishing with ⟨_, _, ⟨terminator, terminated, rfl⟩, rfl, rfl⟩
    refine ⟨ifToken :: (conditionUsed ++ comma :: doToken :: colon :: (positiveUsed ++
      terminator)), by simp, ?_⟩
    exact {
      written := fun _ _ => .choice isIf conditionRead.written isComma isDo isColon
        positiveRead.written terminated
      canonical := ⟨opensOther, conditionRead.canonical, positiveRead.canonical⟩
      depth := Nat.succ_le_succ (max_lt conditionRead.depth positiveRead.depth)
      noElse := by simp [Stmt.takesElse]
      notDeclaration := rfl }

theorem declaration_reads {statement : Clause Stmt} (readsStatement : statement.Reads room) :
    (declaration expression statement).ReadsDeclaration room := by
  intro tokens errors result rest done
  rcases Clause.run_byToken_eq_ok_iff.mp done with
    ⟨letToken, behind, next, rfl, selected, ran⟩ | ⟨_, ran⟩
  · split at selected
    · rename_i isLet
      cases selected
      rcases Course.run_ofStep_eq_ok_iff.mp ran with ⟨rfl, letRan⟩
      exact letDeclaration_reads reads (beq_iff_eq.mp isLet) letRan
    · contradiction
  · rcases readsStatement ran with ⟨used, rfl, read⟩
    exact ⟨used, rfl, read.toDeclarationRead⟩

/-! ## Branches -/

theorem branch_reads {statement : Clause Stmt} (readsStatement : statement.Reads room)
    {ifToken : Token} {tokens rest : List Token} {errors : List ParseError} {result : Stmt}
    (isIf : ifToken.kind = .keyword .ifWord)
    (done : (branch expression statement).run tokens = (errors, .ok (result, rest))) :
    ∃ used, ifToken :: tokens = used ++ rest ∧
      StatementRead (room + 1) errors result used rest := by
  simp only [branch, branchCondition, Course.run_bind_eq_ok_iff, Course.run_ofStep_eq_ok_iff,
    Step.run_bind_eq_ok_iff, Rule.run_expect_eq_ok_iff, Step.run_skipSeparators_eq_ok_iff,
    Step.run_pure_eq_ok_iff] at done
  obtain ⟨_, condition, _, _, ⟨rfl, opening, _, ⟨opens, rfl⟩, _, behind, conditionRan, closing,
    left, ⟨closes, rfl⟩, _, _, rfl, rfl, rfl⟩, ⟨positiveErrors, positive, middle, _, positiveRan,
    ⟨_, found, later, _, ⟨rfl, accepting⟩, finishing, rfl⟩, rfl⟩, rfl⟩ := done
  rcases reads conditionRan with ⟨conditionUsed, rfl, conditionRead⟩
  rcases exists_separators_append_dropWhile left with ⟨gap, separators, whole⟩
  rcases readsStatement positiveRan with ⟨used, same, read⟩
  rw [same] at whole
  subst whole
  rcases run_acceptElse_eq_ok_iff.mp accepting with
    ⟨rfl, before, elseToken, separatorsBefore, isElse, rfl⟩ | ⟨rfl, noElse, rfl⟩
  · rw [if_pos rfl] at finishing
    simp only [Course.run_bind_eq_ok_iff, Course.run_ofStep_eq_ok_iff,
      Step.run_skipSeparators_eq_ok_iff, Course.run_pure_eq_ok_iff] at finishing
    obtain ⟨_, _, _, _, ⟨rfl, rfl⟩, ⟨negativeErrors, negative, _, _, negativeRan,
      ⟨rfl, rfl, rfl⟩, rfl⟩, rfl⟩ := finishing
    rcases exists_separators_append_dropWhile later with ⟨after, separatorsAfter, whole⟩
    rcases readsStatement negativeRan with ⟨negativeUsed, negativeSame, negativeRead⟩
    rw [negativeSame] at whole
    subst whole
    refine ⟨ifToken :: opening :: (conditionUsed ++ closing :: (gap ++ (used ++
      (before ++ elseToken :: (after ++ negativeUsed))))), by simp, ?_⟩
    -- The `else` stood where the first statement could have taken it, so that one takes none.
    have keepsElse : positive.takesElse = false := by
      rw [← Bool.not_eq_true]
      intro takes
      have follows := read.noElse takes
      rw [elseFollows_of_separators separatorsBefore isElse] at follows
      contradiction
    simp only [List.nil_append, List.append_nil]
    exact {
      written := fun Gap admits => .branchElse isIf opens conditionRead.written closes separators
        (read.written Gap admits.left) separatorsBefore isElse separatorsAfter
        (negativeRead.written Gap admits.right)
      canonical := ⟨conditionRead.canonical, read.canonical, read.notDeclaration, keepsElse,
        negativeRead.canonical, negativeRead.notDeclaration⟩
      depth := Nat.succ_le_succ
        (Nat.max_le.mpr ⟨Nat.max_le.mpr ⟨conditionRead.depth, read.depth⟩, negativeRead.depth⟩)
      noElse := negativeRead.noElse
      notDeclaration := rfl }
  · rw [if_neg Bool.false_ne_true] at finishing
    rcases Course.run_pure_eq_ok_iff.mp finishing with ⟨rfl, rfl, rfl⟩
    refine ⟨ifToken :: opening :: (conditionUsed ++ closing :: (gap ++ used)), by simp, ?_⟩
    simp only [List.nil_append, List.append_nil]
    exact {
      written := fun Gap admits => .branch isIf opens conditionRead.written closes separators
        (read.written Gap admits)
      canonical := ⟨conditionRead.canonical, read.canonical, read.notDeclaration⟩
      depth := Nat.succ_le_succ (Nat.max_le.mpr ⟨conditionRead.depth, read.depth⟩)
      noElse := fun _ => noElse
      notDeclaration := rfl }

/-- Either form of `if` is read as what it begins like. -/
theorem conditional_reads {statement : Clause Stmt} (readsStatement : statement.Reads room)
    {ifToken : Token} {tokens rest : List Token} {errors : List ParseError} {result : Stmt}
    (isIf : ifToken.kind = .keyword .ifWord)
    (done : (conditional expression statement).run tokens = (errors, .ok (result, rest))) :
    ∃ used, ifToken :: tokens = used ++ rest ∧
      StatementRead (room + 1) errors result used rest := by
  rcases Course.run_bind_eq_ok_iff.mp done with ⟨_, _, _, later, ran, choosing, rfl⟩
  rcases Course.run_ofStep_eq_ok_iff.mp ran with ⟨rfl, looked⟩
  rcases Step.run_next?_eq_ok_iff.mp looked with ⟨rfl, rfl⟩
  split at choosing
  · exact branch_reads reads readsStatement isIf choosing
  · rename_i notParenthesis
    rcases Course.run_ofStep_eq_ok_iff.mp choosing with ⟨rfl, choiceRan⟩
    exact choice_reads reads isIf (Bool.eq_false_iff.mpr notParenthesis) choiceRan

end Rules

/-! ## Lists of declarations -/

/-- An attempt keeps what the declaration reads, or else there is an error. -/
theorem attempt_cases {α : Type} (inBlock : Bool) (declaration : Clause α)
    (tokens : List Token) :
    (∃ errors a rest, declaration.course.run tokens = (errors, .ok (a, rest)) ∧
      attempt inBlock declaration tokens = (errors, some a, rest)) ∨
    (∃ errors rest, errors ≠ [] ∧ attempt inBlock declaration tokens = (errors, none, rest)) := by
  unfold attempt
  split
  · rename_i errors a rest ran
    exact .inl ⟨errors, a, rest, ran, rfl⟩
  · rename_i errors failure _
    exact .inr ⟨errors ++ [failure.error], _, by simp, rfl⟩

/-- Where anything may be a gap, tokens that are dropped in front belong to the first gap. -/
theorem bodyWritten_append_left {Gap : List Token → Prop} (all : ∀ gap, Gap gap)
    {body : List Stmt} {used behind : List Token} (dropped : List Token)
    (written : BodyWritten Gap body used behind) :
    BodyWritten Gap body (dropped ++ used) behind := by
  cases written with
  | nil _ => exact .nil (all _)
  | @cons _ _ gap used others _ _ written bodyWritten =>
      rw [← List.append_assoc]
      exact .cons (all _) written bodyWritten

/-- Statements that need no more than `room` levels, and the tokens that write them with what was
dropped between them. -/
structure BodyRead (room : Nat) (errors : List ParseError) (body : List Stmt)
    (used rest : List Token) : Prop where
  written : ∀ Gap, Admits Gap errors → BodyWritten Gap body used rest
  canonical : CanonicalBody body
  depth : depthOfBody body ≤ room

/-- Declarations that are read are written by what was read. -/
theorem declarationsFrom_reads {declaration : Clause Stmt} {room : Nat}
    (reads : declaration.ReadsDeclaration room) (inBlock : Bool) (tokens : List Token) :
    ∃ used, tokens = used ++ (declarationsFrom inBlock declaration tokens).2.2 ∧
      BodyRead room (declarationsFrom inBlock declaration tokens).1
        (declarationsFrom inBlock declaration tokens).2.1 used
        (declarationsFrom inBlock declaration tokens).2.2 := by
  fun_induction declarationsFrom inBlock declaration tokens with
  | case1 tokens start =>
      rcases exists_separators_append_dropWhile tokens with ⟨gap, separators, whole⟩
      rw [start] at whole
      exact ⟨gap, whole, fun _ admits => .nil (admits.separators gap separators), trivial,
        Nat.zero_le room⟩
  | case2 tokens token rest start _ =>
      rcases exists_separators_append_dropWhile tokens with ⟨gap, separators, whole⟩
      rw [start] at whole
      exact ⟨gap, whole, fun _ admits => .nil (admits.separators gap separators), trivial,
        Nat.zero_le room⟩
  | case3 tokens token rest start _ tried later ih =>
      rcases exists_separators_append_dropWhile tokens with ⟨gap, separators, whole⟩
      rw [start] at whole
      rcases ih with ⟨others, same, read⟩
      rcases attempt_cases inBlock declaration (token :: rest) with
        ⟨errors, statement, left, ran, attempted⟩ | ⟨errors, left, failed, attempted⟩
      · rcases reads ran with ⟨used, sameUsed, statementRead⟩
        simp only [tried, later, attempted, Option.toList_some, List.singleton_append]
          at same read ⊢
        refine ⟨gap ++ (used ++ others), ?_, ?_, ?_, ?_⟩
        · rw [whole, sameUsed, List.append_assoc, List.append_assoc, ← same]
        · intro Gap admits
          refine .cons (admits.separators gap separators) ?_ (read.written Gap admits.right)
          rw [← same]
          exact statementRead.written Gap admits.left
        · exact ⟨statementRead.canonical, read.canonical⟩
        · exact Nat.max_le.mpr ⟨statementRead.depth, read.depth⟩
      · -- A dropped declaration leaves an error, so its tokens may stand in a gap.
        rcases attempt_suffix inBlock declaration (token :: rest) with ⟨dropped, droppedSame⟩
        simp only [tried, later, attempted, Option.toList_none, List.nil_append]
          at same read droppedSame ⊢
        refine ⟨gap ++ (dropped ++ others), ?_, ?_, read.canonical, read.depth⟩
        · rw [whole, ← droppedSame, List.append_assoc, List.append_assoc, ← same]
        · intro Gap admits
          rw [← List.append_assoc]
          exact bodyWritten_append_left (admits.left.dropped failed) _
            (read.written Gap admits.right)

theorem block_reads {expression : Rule Expr} {statement : Clause Stmt} {room : Nat}
    (reads : expression.Reads room 0) (readsStatement : statement.Reads room) {opening : Token}
    {tokens rest : List Token} {errors : List ParseError} {result : Stmt}
    (opens : opening.kind = .sign .leftBrace)
    (done : (block expression statement).run tokens = (errors, .ok (result, rest))) :
    ∃ used, opening :: tokens = used ++ rest ∧
      StatementRead (room + 1) errors result used rest := by
  simp only [block, Course.run_bind_eq_ok_iff, Course.run_ofStep_eq_ok_iff,
    Rule.run_expect_eq_ok_iff, Course.run_pure_eq_ok_iff] at done
  obtain ⟨bodyErrors, body, middle, _, ran, ⟨_, closing, _, _, ⟨rfl, closes, rfl⟩,
    ⟨rfl, rfl, rfl⟩, rfl⟩, rfl⟩ := done
  obtain ⟨used, same, read⟩ :=
    declarationsFrom_reads (declaration_reads reads readsStatement) true tokens
  have split : declarationsFrom true (declaration expression statement) tokens =
      (bodyErrors, body, closing :: rest) := by
    simpa [declarations, Prod.ext_iff, and_assoc] using ran
  rw [split] at same read
  refine ⟨opening :: (used ++ [closing]), by simp [same], ?_⟩
  simp only [List.append_nil]
  exact {
    written := fun Gap admits => .block opens (read.written Gap admits) closes
    canonical := read.canonical
    depth := Nat.succ_le_succ read.depth
    noElse := by simp [Stmt.takesElse]
    notDeclaration := rfl }

/-- Whatever is read as a statement is canonical and no deeper than there was room for. -/
theorem statement_reads (room : Nat) : (statement room).Reads room := by
  induction room with
  | zero =>
      intro tokens errors result rest done
      rcases Course.run_ofStep_eq_ok_iff.mp done with ⟨-, failed⟩
      exact absurd failed Rule.run_fail_ne_ok
  | succ room ih =>
      intro tokens errors result rest done
      rcases Clause.run_byToken_eq_ok_iff.mp done with
        ⟨token, behind, next, rfl, selected, ran⟩ | ⟨_, ran⟩
      · split at selected
        · rename_i opens
          cases selected
          exact block_reads (expression_reads room) ih opens ran
        · rename_i isIf
          cases selected
          exact conditional_reads (expression_reads room) ih isIf ran
        · contradiction
      · rcases Course.run_ofStep_eq_ok_iff.mp ran with ⟨rfl, expressionRan⟩
        exact expressionStatement_reads (expression_reads room) expressionRan

/-- Outside of blocks declarations are read up to the end. -/
theorem declarationsFrom_false_rest {α : Type} (declaration : Clause α) (tokens : List Token) :
    (declarationsFrom false declaration tokens).2.2 = [] := by
  fun_induction declarationsFrom false declaration tokens with
  | case1 => rfl
  | case2 _ _ _ _ closes => contradiction
  | case3 _ _ _ _ _ _ _ ih => exact ih

end Grammar

/-! ## Whole programs -/

open Grammar

/-- The tokens that are read: those before the end of the text. -/
def readTokens (tokens : List Token) : List Token :=
  tokens.takeWhile (!·.isEnd)

/-- The statements of a program are written by the tokens that are read. -/
theorem parseWithin_read (limit : Nat) (tokens : List Token) :
    ∃ errors, ((parseWithin limit tokens).2 = [] → errors = []) ∧
      BodyRead limit errors (parseWithin limit tokens).1 (readTokens tokens) [] := by
  obtain ⟨used, same, read⟩ := declarationsFrom_reads
    (declaration_reads (expression_reads limit) (statement_reads limit)) false
    (readTokens tokens)
  rw [declarationsFrom_false_rest, List.append_nil] at same
  rw [declarationsFrom_false_rest, ← same] at read
  exact ⟨_, List.map_eq_nil_iff.mp, read⟩

theorem parse_read (tokens : List Token) :
    ∃ errors, ((parse tokens).2 = [] → errors = []) ∧
      BodyRead nestingLimit errors (parse tokens).1 (readTokens tokens) [] :=
  parseWithin_read nestingLimit tokens

/-- Every program that is read needs no more levels than there may be. -/
theorem depthOfBody_parse_le (tokens : List Token) :
    depthOfBody (parse tokens).1 ≤ nestingLimit := by
  rcases parse_read tokens with ⟨_, -, read⟩
  exact read.depth

/-- The parser is sound.  The tokens of the statements are among the tokens that are read, in
their order; if there is no error, nothing is left out but separators and commas behind the last
items of arrays and objects; and the statements are canonical. -/
theorem parse_sound (tokens : List Token) :
    List.SublistForall₂ Symbol.Fits (spellBody [] (parse tokens).1) (readTokens tokens) ∧
      ((parse tokens).2 = [] →
        Spells (·.isSeparator = true) (spellBody [] (parse tokens).1) (readTokens tokens)) ∧
      CanonicalBody (parse tokens).1 := by
  rcases parse_read tokens with ⟨errors, none, read⟩
  constructor
  · -- Anything may be dropped, so any gap will do.
    have written := read.written (fun _ => True) ⟨fun _ _ => trivial, fun _ _ => trivial⟩
    have spells : Spells (fun _ => True) (spellBody [] (parse tokens).1) (readTokens tokens) :=
      spells_of_bodyWritten (fun _ _ => trivial) (fun _ _ _ _ => trivial) _ _ _ written
    exact spells.sublistForall₂
  · constructor
    · intro noError
      have written :=
        read.written Separators ⟨fun _ => id, fun some => absurd (none noError) some⟩
      exact spells_of_bodyWritten (fun _ => id) (fun _ => id) _ _ _ written
    · exact read.canonical

end Descriptor
