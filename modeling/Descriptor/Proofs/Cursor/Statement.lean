import Descriptor.Proofs.Cursor.Expression
import Descriptor.Proofs.Cursor.Record

/-!
# Statements read with a cursor

Every rule for statements follows its counterpart in the grammar.  A declaration that fails is
skipped up to where the grammar tries the next one, and the loops over declarations try those that
the grammar tries.
-/

namespace Descriptor.Cursor

open Grammar

variable {site : Site} {room : Nat} {rules : Rules}

/-- The rules that open a level follow those of the grammar. -/
structure Rules.Follow (rules : Rules) (site : Site) (room : Nat) : Prop
    extends rules.FollowOperands site room (operands room) where
  statement : CourseFollows site room 1 rules.statement (Grammar.statement room).course

/-! ## Statements without declarations in them -/

theorem endStatement_follows (ending : Ending) :
    Follows site room (endStatement ending) (Grammar.endStatement ending) := by
  apply (FollowsAs.accept (by decide)).bind
  intro accepted
  cases accepted with
  | some separator => exact .pure rfl
  | none =>
      intro registers unread level inside
      have mayEnd :
          (unread.head?.any closesBlock ||
            unread.head?.any (·.kind == .keyword .elseWord) || unread.isEmpty) =
          unread.head?.all fun token =>
            closesBlock token || token.kind == .keyword .elseWord := by
        cases unread <;> simp
      simp only [Option.isSome_none, Bool.false_eq_true, if_false, Machine.run_bind,
        run_check_brace inside, run_check inside _ (.keyword .elseWord) nofun,
        run_isAtEnd inside, mayEnd, Step.run_bind, Step.run_next?]
      cases unread.head?.all fun token => closesBlock token || token.kind == .keyword .elseWord with
      | true => exact .ok (List.suffix_refl unread)
      | false => exact .fail _ inside (List.suffix_refl unread)

section Rules

variable (follow : rules.FollowOperands site room (operands room))
include follow

theorem expressionStatement_follows :
    Follows site room (expressionStatement rules)
      (Grammar.expressionStatement (expression room)).step := by
  apply follow.expression.bind
  intro value
  apply (endStatement_follows _).bind
  intro _
  exact .pure rfl

theorem letDeclaration_follows :
    Follows site room (letDeclaration rules) (Grammar.letDeclaration (expression room)) := by
  apply (FollowsAs.consume (by decide) _).bind
  intro name
  apply (FollowsAs.accept (by decide)).bind
  intro accepted
  cases accepted with
  | none =>
      apply (endStatement_follows _).bind
      intro _
      exact .pure rfl
  | some equals =>
      apply follow.expression.bind
      intro initializer
      apply (endStatement_follows _).bind
      intro _
      exact .pure rfl

theorem choice_follows :
    Follows site room (choice rules) (Grammar.choice (expression room)) := by
  apply follow.expression.bind
  intro condition
  apply (FollowsAs.consume (by decide) _).bind
  intro comma
  apply (FollowsAs.consume (by decide) _).bind
  intro doWord
  apply (FollowsAs.consume (by decide) _).bind
  intro colon
  apply follow.expression.bind
  intro positive
  apply (FollowsAs.accept (by decide)).bind
  intro accepted
  cases accepted with
  | none =>
      apply (endStatement_follows _).bind
      intro _
      exact .pure rfl
  | some comma =>
      apply (FollowsAs.consume (by decide) _).bind
      intro elseWord
      apply (FollowsAs.consume (by decide) _).bind
      intro colon
      apply follow.expression.bind
      intro negative
      apply (endStatement_follows _).bind
      intro _
      exact .pure rfl

theorem branchCondition_follows :
    Follows site room (branchCondition rules) (Grammar.branchCondition (expression room)) := by
  apply (FollowsAs.consume (by decide) _).bind
  intro opening
  apply follow.expression.bind
  intro condition
  apply (FollowsAs.consume (by decide) _).bind
  intro closing
  apply FollowsAs.skipSeparators.bind
  intro _
  exact .pure rfl

end Rules

/-! ## Statements with declarations in them -/

section Rules

variable (follow : rules.Follow site room)
include follow

theorem branch_follows :
    CourseFollows site room 0 (branch rules)
      (Grammar.branch (expression room) (Grammar.statement room)) := by
  apply (CourseFollows.ofStep (branchCondition_follows follow.toFollowOperands)).bind
  intro condition
  apply follow.statement.weaken.bind
  intro positive
  apply (CourseFollows.ofStep .acceptElse).bind
  intro isElse
  cases isElse with
  | false => exact .pure _
  | true =>
      apply (CourseFollows.ofStep .skipSeparators).bind
      intro _
      apply follow.statement.weaken.bind
      intro negative
      exact .pure _

theorem conditional_follows :
    CourseFollows site room 0 (conditional rules)
      (Grammar.conditional (expression room) (Grammar.statement room)) := by
  intro registers unread level inside
  simp only [conditional, Grammar.conditional, Machine.run_bind,
    run_check inside _ (.sign .leftParen) nofun, Course.run_bind, Course.run_ofStep,
    Step.run_next?, List.nil_append]
  cases unread.head?.any (·.kind == .sign .leftParen) with
  | true => exact branch_follows follow level inside
  | false => exact CourseFollows.ofStep (choice_follows follow.toFollowOperands) level inside

/-! ## Declarations -/

theorem letOrStatement_follows :
    CourseFollows site room 1 (letOrStatement rules)
      (Grammar.declaration (expression room) (Grammar.statement room)).course := by
  apply CourseFollows.byKind (by decide)
  · intro token
    simp only [beq_iff_eq]
    rfl
  · exact .ofStep (letDeclaration_follows follow.toFollowOperands)
  · exact .unselected follow.statement

omit follow in
theorem run_declaration_of_ok {input : Input} {registers registers' : Registers} {a : Stmt}
    (ran : (letOrStatement rules).run input registers = .ok (.ok a, registers')) :
    (declaration rules).run input registers = .ok (.ok (.ok a), registers') := by
  simp only [declaration, Machine.run_bind, catching, ran]
  rfl

omit follow in
/-- Behind a declaration that fails, the next one is tried where the grammar tries it. -/
theorem run_declaration_of_error {registers registers' : Registers} {error : CompileError}
    {rest : List Token} (inside : rest <:+ site.text)
    (ran : (letOrStatement rules).run site.input registers =
      .ok (.error error, site.facing rest registers')) :
    (declaration rules).run site.input registers =
      .ok (.ok (.error error),
        site.facing (resume (decide (0 < registers'.depth)) rest) registers') := by
  simp only [declaration, Machine.run_bind, catching, ran, run_synchronize inside]
  rfl

/-- Every declaration that is tried is put on record, and it leaves fewer tokens. -/
theorem run_attempt {registers : Registers} {token : Token} {rest : List Token} {inBlock : Bool}
    (level : nestingLimit - registers.nesting = room) (inside : token :: rest <:+ site.text)
    (isInBlock : inBlock = decide (0 < registers.depth))
    (opens : (inBlock && closesBlock token) = false) :
    let tried := Grammar.attempt inBlock
      (Grammar.declaration (expression room) (Grammar.statement room)) (token :: rest)
    ∃ attempts, Logged site (site.index (token :: rest)) (token :: rest) tried.1 attempts
        tried.2.2 ∧
      (attempt rules).run site.input (site.facing (token :: rest) registers) =
        .ok (.ok tried.2.1, site.facing tried.2.2 (registers.log attempts)) := by
  intro tried
  have consumes : site.index (token :: rest) < site.index tried.2.2 :=
    Site.index_lt inside (length_attempt_lt _ opens)
  have same := letOrStatement_follows follow level inside
  generalize ran : (Grammar.declaration (expression room) (Grammar.statement room)).course.run
    (token :: rest) = result, ran' : (letOrStatement rules).run site.input _ = outcome at same
  cases same with
  | @ok errors attempts a left logged =>
      have isTried : tried = (errors, some a, left) := by
        simp only [tried, Grammar.attempt, ran]
      rw [isTried] at consumes ⊢
      refine ⟨_, logged.concat none (List.suffix_refl left) logged.inPlace (List.append_nil _)
        consumes, ?_⟩
      simp only [attempt, Machine.run_bind, Cursor.registers, run_declaration_of_ok ran', record,
        modify]
      simp [Registers.log, Site.facing]
  | @error errors attempts error middle place left logged isAt ahead forward =>
      have isTried : tried = (errors ++ [error], none, resume inBlock left) := by
        simp only [tried, Grammar.attempt, ran]
      have behind := resume_suffix inBlock left
      have insideLeft : left <:+ site.text :=
        ((forward.trans ahead).trans logged.inPlace.forward).trans inside
      rw [← Site.facing_report] at ran'
      have dropped := run_declaration_of_error insideLeft ran'
      rw [isTried] at consumes ⊢
      refine ⟨_, logged.concat (some (error.report site.close)) ((behind.trans forward).trans ahead)
        (logged.inPlace.concat isAt ahead (behind.trans forward)) (by simp) consumes, ?_⟩
      simp only [attempt, Machine.run_bind, Cursor.registers, dropped, record, modify]
      simp [Registers.log, Registers.report, Site.facing, isInBlock]

omit follow in
theorem run_declarationRound_of_closes {registers : Registers} {unread start : List Token}
    {inBlock : Bool} (inside : unread <:+ site.text)
    (isStart : unread.dropWhile Token.isSeparator = start)
    (closes : (inBlock && start.head?.any closesBlock || start.isEmpty) = true)
    (kept : List Stmt) :
    (declarationRound rules inBlock kept).run site.input (site.facing unread registers) =
      .ok (.ok (.inr kept), site.facing start registers) := by
  have insideStart : start <:+ site.text :=
    isStart ▸ (List.dropWhile_suffix Token.isSeparator).trans inside
  simp only [declarationRound, Machine.run_bind, run_skipSeparators inside, isStart,
    run_check_brace insideStart, run_isAtEnd insideStart, closes, if_true]
  rfl

omit follow in
theorem run_declarationRound_of_opens {registers registers' : Registers} {unread start : List Token}
    {inBlock : Bool} {statement? : Option Stmt} (inside : unread <:+ site.text)
    (isStart : unread.dropWhile Token.isSeparator = start)
    (opens : (inBlock && start.head?.any closesBlock || start.isEmpty) = false)
    (ran : (attempt rules).run site.input (site.facing start registers) =
      .ok (.ok statement?, registers')) (kept : List Stmt) :
    (declarationRound rules inBlock kept).run site.input (site.facing unread registers) =
      .ok (.ok (.inl (kept ++ statement?.toList)), registers') := by
  have insideStart : start <:+ site.text :=
    isStart ▸ (List.dropWhile_suffix Token.isSeparator).trans inside
  simp only [declarationRound, Machine.run_bind, run_skipSeparators inside, isStart,
    run_check_brace insideStart, run_isAtEnd insideStart, opens, Bool.false_eq_true, if_false, ran]
  rfl

/-- The loop over declarations tries those that the grammar tries. -/
theorem run_loopFrom_declarationRound (inBlock : Bool) {registers : Registers}
    {unread : List Token} (level : nestingLimit - registers.nesting = room)
    (inside : unread <:+ site.text) (isInBlock : inBlock = decide (0 < registers.depth))
    {turns : Nat} (enough : unread.length < turns) (kept : List Stmt) :
    let read := declarationsFrom inBlock
      (Grammar.declaration (expression room) (Grammar.statement room)) unread
    ∃ attempts, Logged site (site.index unread) unread read.1 attempts read.2.2 ∧
      (loopFrom (declarationRound rules inBlock) turns kept).run site.input
          (site.facing unread registers) =
        .ok (.ok (kept ++ read.2.1), site.facing read.2.2 (registers.log attempts)) := by
  fun_induction declarationsFrom inBlock
      (Grammar.declaration (expression room) (Grammar.statement room)) unread
      generalizing registers kept turns with
  | case1 unread isStart =>
      obtain ⟨turns, rfl⟩ := Nat.exists_eq_add_of_lt enough
      have forward : [] <:+ unread := List.nil_suffix
      refine ⟨[], .nil forward, ?_⟩
      rw [run_loopFrom_of_inr _ (run_declarationRound_of_closes inside isStart (by simp) kept)]
      simp
  | case2 unread token rest isStart closes =>
      obtain ⟨turns, rfl⟩ := Nat.exists_eq_add_of_lt enough
      have forward : token :: rest <:+ unread := isStart ▸ List.dropWhile_suffix Token.isSeparator
      refine ⟨[], .nil forward, ?_⟩
      rw [run_loopFrom_of_inr _ (run_declarationRound_of_closes inside isStart
        (by simpa using closes) kept)]
      simp
  | case3 unread token rest isStart opens tried later =>
      rename_i ih
      obtain ⟨turns, rfl⟩ := Nat.exists_eq_add_of_lt enough
      have forward : token :: rest <:+ unread := isStart ▸ List.dropWhile_suffix Token.isSeparator
      have closed := Bool.eq_false_iff.mpr opens
      rcases run_attempt follow level (forward.trans inside) isInBlock closed with
        ⟨attempts, logged, ran⟩
      have behind : tried.2.2 <:+ unread := (attempt_suffix _ _ _).trans forward
      have shorter : tried.2.2.length < unread.length :=
        Nat.lt_of_lt_of_le (length_attempt_lt _ closed) forward.length_le
      have leftLevel : nestingLimit - (registers.log attempts).nesting = room := level
      rcases @ih (registers.log attempts) leftLevel (behind.trans inside) isInBlock
          (unread.length + turns) (by omega) (kept ++ tried.2.1.toList) with
        ⟨more, others, ran'⟩
      refine ⟨attempts ++ more, ?_, ?_⟩
      · have first := (logged.weaken (Site.index_mono forward)).mono forward
        exact first.append others (Site.index_mono behind)
      · rw [run_loopFrom_of_inl _ (run_declarationRound_of_opens inside isStart
          (by simpa using opens) ran kept)]
        rw [Registers.log_log, List.append_assoc] at ran'
        exact ran'

/-- The declarations of a block.  The depth is taken back behind them. -/
theorem blockBody_follows :
    CourseFollows site room 0 (blockBody rules)
      (Grammar.declarations (Grammar.declaration (expression room) (Grammar.statement room))) := by
  intro registers unread level inside
  have levelInside : nestingLimit - registers.enterBlock.nesting = room := level
  have isInBlock : true = decide (0 < registers.enterBlock.depth) := by simp [Registers.enterBlock]
  rcases run_loopFrom_declarationRound follow true levelInside inside isInBlock
    (Site.length_lt_turns inside) [] with ⟨attempts, logged, ran⟩
  change (declarations rules true).run site.input (site.facing unread registers.enterBlock) = _
    at ran
  simp only [blockBody, Machine.run_bind, modify, Site.enterBlock_facing, ran]
  exact .ok logged

theorem block_follows :
    CourseFollows site room 0 (block rules)
      (Grammar.block (expression room) (Grammar.statement room)) := by
  apply (blockBody_follows follow).bind
  intro body
  apply (CourseFollows.ofStep (.consume (by decide) _)).bind
  intro closing
  exact .pure _

/-! ## Levels -/

theorem statement_follows :
    CourseFollows site room 1 (statement rules) (Grammar.statement (room + 1)).course := by
  apply CourseFollows.byKind (by decide) ?selects (block_follows follow)
  · apply CourseFollows.byKind (by decide) (fun token => rfl) (conditional_follows follow)
    exact .unselected (.ofStep (expressionStatement_follows follow.toFollowOperands))
  · intro token
    split <;> simp_all

end Rules

/-- The rules of the machine follow those of the grammar, as long as they may call each other more
often than levels are left. -/
theorem rulesWithin_follow {calls : Nat} (enough : room < calls) :
    (rulesWithin calls).Follow site room := by
  refine ⟨rulesWithin_followOperands enough, ?_⟩
  induction room generalizing calls with
  | zero =>
      obtain ⟨calls, rfl⟩ := Nat.exists_eq_add_of_lt enough
      exact .ofStep (.nested_zero _)
  | succ room ih =>
      obtain ⟨calls, rfl⟩ := Nat.exists_eq_add_of_lt enough
      have less : room < room + 1 + calls := by omega
      exact .nested (statement_follows ⟨rulesWithin_followOperands less, ih less⟩)

end Descriptor.Cursor
