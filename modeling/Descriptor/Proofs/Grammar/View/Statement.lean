import Descriptor.Grammar.Statement
import Descriptor.Proofs.Grammar.View.Expression

/-!
# Programs through a view

A view that skips separators on both sides shows whole programs.  In particular the lines and
lexemes of tokens do not count for the parser: with other tokens of the same kinds it gives the
same statements with these tokens, and the same faults, `parse_map`.
-/

namespace Descriptor

/-! ## Statements through a map of tokens -/

mutual

/-- The statement with other tokens. -/
def Stmt.mapTokens (map : Token → Token) : Stmt → Stmt
  | .block body => .block (mapBody map body)
  | .expression expression => .expression (expression.mapTokens map)
  | .branch condition positive none =>
      .branch (condition.mapTokens map) (positive.mapTokens map) none
  | .branch condition positive (some negative) =>
      .branch (condition.mapTokens map) (positive.mapTokens map) (some (negative.mapTokens map))
  | .choice condition positive negative =>
      .choice (condition.mapTokens map) (positive.mapTokens map)
        (negative.map (Expr.mapTokens map))
  | .declaration name initializer =>
      .declaration (map name) (initializer.map (Expr.mapTokens map))

/-- The statements with other tokens. -/
def mapBody (map : Token → Token) : List Stmt → List Stmt
  | [] => []
  | statement :: body => statement.mapTokens map :: mapBody map body

end

theorem mapBody_eq_map (map : Token → Token) (body : List Stmt) :
    mapBody map body = body.map (Stmt.mapTokens map) := by
  induction body with
  | nil => rfl
  | cons statement body ih => rw [mapBody, ih, List.map_cons]

mutual

theorem Stmt.mapTokens_id : ∀ statement : Stmt, statement.mapTokens id = statement
  | .block body => by rw [Stmt.mapTokens, mapBody_id body]
  | .expression expression => by rw [Stmt.mapTokens, expression.mapTokens_id]
  | .branch condition positive none => by
      rw [Stmt.mapTokens, condition.mapTokens_id, positive.mapTokens_id]
  | .branch condition positive (some negative) => by
      rw [Stmt.mapTokens, condition.mapTokens_id, positive.mapTokens_id, negative.mapTokens_id]
  | .choice condition positive negative => by
      rw [Stmt.mapTokens, condition.mapTokens_id, positive.mapTokens_id,
        funext Expr.mapTokens_id, Option.map_id']
  | .declaration name initializer => by
      rw [Stmt.mapTokens, funext Expr.mapTokens_id, Option.map_id', id]

theorem mapBody_id : ∀ body : List Stmt, mapBody id body = body
  | [] => rfl
  | statement :: body => by rw [mapBody, statement.mapTokens_id, mapBody_id body]

end

namespace Grammar

variable {α β γ δ : Type} {view : View}

/-! ## Courses through a view -/

/-- Whatever the first course does on a list, the second one does on what the view shows of it,
and it drops declarations with the same errors. -/
def Course.Seen (view : View) (shown : α → β) (course : Course α) (course' : Course β) : Prop :=
  ∀ ⦃tokens tokens'⦄, view.Shows tokens tokens' →
    (course'.run tokens').1 = (course.run tokens).1.map view.error ∧
      view.Same shown (course.run tokens).2 (course'.run tokens').2

namespace Course.Seen

variable {shown : α → β} {shown' : γ → δ}

theorem ofStep {step : Step α} {step' : Step β} (seen : step.Seen view shown step') :
    (Course.ofStep step).Seen view shown (Course.ofStep step') :=
  fun _ _ shows => ⟨rfl, seen shows⟩

theorem pure {a : α} {b : β} (same : b = shown a) :
    Course.Seen view shown (Pure.pure a) (Pure.pure b) :=
  ofStep (.pure same)

theorem bind {course : Course α} {course' : Course β} {next : α → Course γ}
    {next' : β → Course δ} (first : course.Seen view shown course')
    (second : ∀ a, (next a).Seen view shown' (next' (shown a))) :
    (course >>= next).Seen view shown' (course' >>= next') := by
  intro tokens tokens' shows
  rw [Course.run_bind, Course.run_bind]
  rcases first shows with ⟨errors, same⟩
  generalize course.run tokens = ran, course'.run tokens' = ran' at errors same ⊢
  rcases ran with ⟨left, result⟩
  rcases ran' with ⟨right, result'⟩
  cases same with
  | @ok a _ _ shows =>
      rcases second a shows with ⟨later, same⟩
      refine ⟨?_, same⟩
      rw [List.map_append]
      exact congrArg₂ _ errors later
  | error shows => exact ⟨errors, .error shows⟩

/-- The next token is selected on both sides or on neither, and it is never the end. -/
theorem byToken {select : Token → Option (Course α)} {select' : Token → Option (Course β)}
    {otherwise : Clause α} {otherwise' : Clause β}
    (selects : ∀ token,
      Option.Rel (Course.Seen view shown) (select token) (select' (view.map token)))
    (closes : ∀ token, token.kind = .separator → select' token = none)
    (others : otherwise.course.Seen view shown otherwise'.course) :
    (Clause.byToken select otherwise).course.Seen view shown
      (Clause.byToken select' otherwise').course := by
  intro tokens tokens' shows
  have same := others shows
  cases tokens with
  | nil =>
      cases tokens' with
      | nil => exact same
      | cons token rest =>
          have unselected := closes token (View.kind_of_nil shows token rfl)
          rw [Clause.run_byToken_of_none unselected]
          exact same
  | cons token rest =>
      have selected := selects token
      rcases view.cons shows with ⟨rest', rfl, showsRest⟩
      generalize here : select token = next, there : select' (view.map token) = next' at selected
      cases selected with
      | none =>
          rw [Clause.run_byToken_of_none here, Clause.run_byToken_of_none there]
          exact same
      | some seen =>
          rw [Clause.run_byToken_of_some here, Clause.run_byToken_of_some there]
          exact seen showsRest

end Course.Seen

/-! ## Lists of declarations -/

section Declarations

variable (skips : view.Skips)
include skips

theorem View.Skips.nil {tokens : List Token} (shows : view.Shows [] tokens) : tokens = [] := by
  have none := view.nil shows
  rwa [skips.close, List.head?_eq_none_iff] at none

theorem View.Skips.any_head? {tokens tokens' : List Token} (shows : view.Shows tokens tokens')
    (test : Token → Bool) (sameTest : ∀ token, test (view.map token) = test token) :
    tokens'.head?.any test = tokens.head?.any test := by
  rw [View.head?_eq shows, skips.any_shown sameTest]

theorem behindLine_shows {tokens tokens' : List Token} (shows : view.Shows tokens tokens') :
    view.Shows (behindLine tokens) (behindLine tokens') := by
  induction tokens generalizing tokens' with
  | nil =>
      cases skips.nil shows
      exact shows
  | cons token rest ih =>
      rcases view.cons shows with ⟨rest', rfl, showsRest⟩
      have same : (view.map token).isSeparator = token.isSeparator := by
        simp only [Token.isSeparator, view.kind_map]
      have closes := skips.any_head? showsRest closesBlock
        fun token => by simp only [closesBlock, view.kind_map]
      simp only [behindLine, same, closes]
      split
      · exact showsRest
      · exact ih showsRest

theorem resume_shows (inBlock : Bool) {tokens tokens' : List Token}
    (shows : view.Shows tokens tokens') :
    view.Shows (resume inBlock tokens) (resume inBlock tokens') := by
  have closes := skips.any_head? shows closesBlock
    fun token => by simp only [closesBlock, view.kind_map]
  simp only [resume, closes]
  apply skips.skip
  split
  · exact shows
  · exact behindLine_shows skips shows

theorem attempt_seen (inBlock : Bool) {shown : α → β} {declaration : Clause α}
    {declaration' : Clause β} (seen : declaration.course.Seen view shown declaration'.course)
    {tokens tokens' : List Token} (shows : view.Shows tokens tokens') :
    (attempt inBlock declaration' tokens').1 =
        (attempt inBlock declaration tokens).1.map view.error ∧
      (attempt inBlock declaration' tokens').2.1 =
        (attempt inBlock declaration tokens).2.1.map shown ∧
      view.Shows (attempt inBlock declaration tokens).2.2
        (attempt inBlock declaration' tokens').2.2 := by
  rcases seen shows with ⟨errors, same⟩
  unfold attempt
  generalize declaration.course.run tokens = ran, declaration'.course.run tokens' = ran'
    at errors same ⊢
  rcases ran with ⟨left, result⟩
  rcases ran' with ⟨right, result'⟩
  cases same with
  | ok showsRest => exact ⟨errors, rfl, showsRest⟩
  | @error error _ _ showsRest =>
      refine ⟨?_, rfl, resume_shows skips inBlock showsRest⟩
      rw [List.map_append]
      exact congrArg (· ++ [view.error error]) errors

theorem declarationsFrom_seen (inBlock : Bool) {shown : α → β} {declaration : Clause α}
    {declaration' : Clause β} (seen : declaration.course.Seen view shown declaration'.course)
    {tokens tokens' : List Token} (shows : view.Shows tokens tokens') :
    (declarationsFrom inBlock declaration' tokens').1 =
        (declarationsFrom inBlock declaration tokens).1.map view.error ∧
      (declarationsFrom inBlock declaration' tokens').2.1 =
        (declarationsFrom inBlock declaration tokens).2.1.map shown ∧
      view.Shows (declarationsFrom inBlock declaration tokens).2.2
        (declarationsFrom inBlock declaration' tokens').2.2 := by
  fun_induction declarationsFrom inBlock declaration tokens generalizing tokens' with
  | case1 tokens start =>
      have skipped := skips.skip shows
      rw [start] at skipped
      have start' := skips.nil skipped
      rw [start'] at skipped
      rw [declarationsFrom_of_nil start']
      exact ⟨rfl, rfl, skipped⟩
  | case2 tokens token rest start ends =>
      have skipped := skips.skip shows
      rw [start] at skipped
      rcases view.cons skipped with ⟨rest', start', -⟩
      rw [start'] at skipped
      have ends' : (inBlock && closesBlock (view.map token)) = true := by
        simpa only [closesBlock, view.kind_map] using ends
      rw [declarationsFrom_of_closes start' ends']
      exact ⟨rfl, rfl, skipped⟩
  | case3 tokens token rest start opens tried later =>
      rename_i ih
      have skipped := skips.skip shows
      rw [start] at skipped
      have tries := attempt_seen skips inBlock seen skipped
      rcases view.cons skipped with ⟨rest', start', -⟩
      rw [start'] at tries
      have opens' : ¬(inBlock && closesBlock (view.map token)) = true := by
        simpa only [closesBlock, view.kind_map] using opens
      rw [declarationsFrom_of_opens start' opens']
      rcases tries with ⟨errors, kept, showsBehind⟩
      rcases ih showsBehind with ⟨laterErrors, laterKept, showsLast⟩
      refine ⟨?_, ?_, showsLast⟩
      · rw [List.map_append]
        exact congrArg₂ _ errors laterErrors
      · rw [List.map_append, laterKept, kept]
        cases tried.2.1 <;> rfl

/-- The declarations of a block are the same. -/
theorem declarations_seen {shown : α → β} {declaration : Clause α} {declaration' : Clause β}
    (seen : declaration.course.Seen view shown declaration'.course) :
    (declarations declaration).Seen view (List.map shown) (declarations declaration') := by
  intro tokens tokens' shows
  rcases declarationsFrom_seen skips true seen shows with ⟨errors, kept, showsRest⟩
  refine ⟨errors, ?_⟩
  unfold declarations
  simp only
  generalize declarationsFrom true declaration tokens = read,
    declarationsFrom true declaration' tokens' = read' at kept showsRest ⊢
  rcases read' with ⟨_, _, _⟩
  cases kept
  exact .ok showsRest

/-! ## Statements -/

theorem endStatement_seen (ending : Ending) :
    (endStatement ending).Seen view id (endStatement ending) := by
  apply (Step.Seen.accept? (.inr skips.close)).bind
  intro accepted
  cases accepted with
  | some separator => exact .pure rfl
  | none =>
      apply Step.Seen.next?.bind
      intro next
      have kinds : ((next.map view.map).or view.close).all
            (fun token => closesBlock token || token.kind == .keyword .elseWord) =
          next.all fun token => closesBlock token || token.kind == .keyword .elseWord := by
        cases next <;> simp [skips.close, closesBlock, view.kind_map]
      rw [kinds]
      split
      · exact .pure rfl
      · exact .fail _

theorem acceptElse_seen : acceptElse.Seen view id acceptElse := by
  intro tokens tokens' shows
  have skipped := skips.skip shows
  simp only [acceptElse]
  generalize tokens.dropWhile Token.isSeparator = start,
    tokens'.dropWhile Token.isSeparator = start' at skipped ⊢
  cases start with
  | nil =>
      cases skips.nil skipped
      exact .ok shows
  | cons token rest =>
      rcases view.cons skipped with ⟨rest', rfl, showsRest⟩
      simp only [view.kind_map]
      split
      · exact .ok showsRest
      · exact .ok shows

section Rules

variable {expression : Rule Expr}
  (seen : expression.step.Seen view (Expr.mapTokens view.map) expression.step)
include seen

theorem expressionStatement_seen :
    (expressionStatement expression).step.Seen view (Stmt.mapTokens view.map)
      (expressionStatement expression).step := by
  apply seen.bind
  intro value
  apply (endStatement_seen skips _).bind
  intro _
  exact .pure rfl

theorem letDeclaration_seen :
    (letDeclaration expression).Seen view (Stmt.mapTokens view.map)
      (letDeclaration expression) := by
  apply (Step.Seen.expect (by decide) _).bind
  intro name
  apply (Step.Seen.accept? (.inl (by decide))).bind
  intro accepted
  cases accepted with
  | some equals =>
      apply seen.bind
      intro initializer
      apply (endStatement_seen skips _).bind
      intro _
      exact .pure rfl
  | none =>
      apply (endStatement_seen skips _).bind
      intro _
      exact .pure rfl

theorem choice_seen :
    (choice expression).Seen view (Stmt.mapTokens view.map) (choice expression) := by
  apply seen.bind
  intro condition
  apply (Step.Seen.expect (by decide) _).bind
  intro comma
  apply (Step.Seen.expect (by decide) _).bind
  intro doToken
  apply (Step.Seen.expect (by decide) _).bind
  intro colon
  apply seen.bind
  intro positive
  apply (Step.Seen.accept? (.inl (by decide))).bind
  intro accepted
  cases accepted with
  | some secondComma =>
      apply (Step.Seen.expect (by decide) _).bind
      intro elseToken
      apply (Step.Seen.expect (by decide) _).bind
      intro secondColon
      apply seen.bind
      intro negative
      apply (endStatement_seen skips _).bind
      intro _
      exact .pure rfl
  | none =>
      apply (endStatement_seen skips _).bind
      intro _
      exact .pure rfl

theorem branchCondition_seen :
    (branchCondition expression).Seen view (Expr.mapTokens view.map)
      (branchCondition expression) := by
  apply (Step.Seen.expect (by decide) _).bind
  intro opening
  apply seen.bind
  intro condition
  apply (Step.Seen.expect (by decide) _).bind
  intro closing
  apply (Step.Seen.skipSeparators skips).bind
  intro _
  exact .pure rfl

variable {statement : Clause Stmt}
  (seenStatement : statement.course.Seen view (Stmt.mapTokens view.map) statement.course)
include seenStatement

theorem branch_seen :
    (branch expression statement).Seen view (Stmt.mapTokens view.map)
      (branch expression statement) := by
  apply (Course.Seen.ofStep (branchCondition_seen skips seen)).bind
  intro condition
  apply seenStatement.bind
  intro positive
  apply (Course.Seen.ofStep (acceptElse_seen skips)).bind
  intro found
  simp only [id]
  split
  · apply (Course.Seen.ofStep (Step.Seen.skipSeparators skips)).bind
    intro _
    apply seenStatement.bind
    intro negative
    exact .pure rfl
  · exact .pure rfl

theorem conditional_seen :
    (conditional expression statement).Seen view (Stmt.mapTokens view.map)
      (conditional expression statement) := by
  apply (Course.Seen.ofStep Step.Seen.next?).bind
  intro next
  rw [skips.any_shown fun token => by rw [view.kind_map]]
  split
  · exact branch_seen skips seen seenStatement
  · exact .ofStep (choice_seen skips seen)

theorem declaration_seen :
    (declaration expression statement).course.Seen view (Stmt.mapTokens view.map)
      (declaration expression statement).course := by
  apply Course.Seen.byToken
  · intro token
    simp only [view.kind_map]
    split
    · exact .some (.ofStep (letDeclaration_seen skips seen))
    · exact .none
  · intro token isSeparator
    simp [isSeparator]
  · exact seenStatement

theorem block_seen :
    (block expression statement).Seen view (Stmt.mapTokens view.map)
      (block expression statement) := by
  apply (declarations_seen skips (declaration_seen skips seen seenStatement)).bind
  intro body
  apply (Course.Seen.ofStep (Step.Seen.expect (by decide) _)).bind
  intro closing
  exact .pure (by rw [Stmt.mapTokens, mapBody_eq_map])

end Rules

/-- Statements are read the same through a view. -/
theorem statement_seen (room : Nat) :
    (statement room).course.Seen view (Stmt.mapTokens view.map) (statement room).course := by
  have brackets : view.SkipsInBrackets := fun _ _ _ _ _ => skips
  induction room with
  | zero => exact .ofStep (.fail _)
  | succ room ih =>
      have seen := expression_seen brackets room
      apply Course.Seen.byToken
      · intro token
        simp only [view.kind_map]
        split
        · exact .some (block_seen skips seen ih)
        · exact .some (conditional_seen skips seen ih)
        · exact .none
      · intro token isSeparator
        simp [isSeparator]
      · exact .ofStep (expressionStatement_seen skips seen)

end Declarations

/-! ## Other tokens of the same kinds -/

/-- The view that shows every token of a list as another one. -/
def View.ofMap (map : Token → Token) (kinds : ∀ token, (map token).kind = token.kind) : View where
  map := map
  kind_map := kinds
  close := none
  kind_close := kind_of_none
  Shows tokens tokens' := tokens' = tokens.map map
  nil := by
    rintro _ rfl
    rfl
  cons := by
    rintro token rest _ rfl
    exact ⟨rest.map map, rfl, rfl⟩

theorem View.skips_ofMap (map : Token → Token) (kinds : ∀ token, (map token).kind = token.kind) :
    (View.ofMap map kinds).Skips where
  close := rfl
  skip := by
    rintro tokens _ rfl
    have same : Token.isSeparator ∘ map = Token.isSeparator := by
      funext token
      simp only [Function.comp, Token.isSeparator, kinds]
    change (tokens.map map).dropWhile _ = (tokens.dropWhile _).map map
    rw [List.dropWhile_map, same]

end Grammar

open Grammar

/-- The lines and lexemes of tokens do not count when they are read.  Other tokens of the same
kinds give the same statements with these tokens, and the same faults. -/
theorem parse_map {map : Token → Token} (kinds : ∀ token, (map token).kind = token.kind)
    (tokens : List Token) :
    (parse (tokens.map map)).1 = (parse tokens).1.map (Stmt.mapTokens map) ∧
      (parse (tokens.map map)).2.map CompileError.fault =
        (parse tokens).2.map CompileError.fault := by
  have skips := View.skips_ofMap map kinds
  have brackets : (View.ofMap map kinds).SkipsInBrackets := fun _ _ _ _ _ => skips
  have read : (tokens.map map).takeWhile (!·.isEnd) = (tokens.takeWhile (!·.isEnd)).map map := by
    have same : (fun token : Token => !token.isEnd) ∘ map = fun token => !token.isEnd := by
      funext token
      simp only [Function.comp, Token.isEnd, kinds]
    rw [List.takeWhile_map, same]
  rcases declarationsFrom_seen skips false (declaration_seen skips
    (expression_seen brackets nestingLimit) (statement_seen skips nestingLimit)) read with
    ⟨errors, statements, -⟩
  simp only [parse, parseWithin]
  refine ⟨statements, ?_⟩
  rw [errors, List.map_map, List.map_map, List.map_map]
  rfl

end Descriptor
