import Descriptor.Proofs.Grammar.View.Statement

/-!
# Lines in front of other lines

On a line no statement can end before the line does, and nothing is skipped over its end.  So a
declaration that fails on a line fails in the same way where a separator and other tokens stand
behind it: the view of a line shows the end of it as that separator.
-/

namespace Descriptor

/-- Whether a token may stand on a line: it ends no statement, and it opens nothing inside of which
separators are skipped. -/
def Kind.staysOnLine : Kind → Bool
  | .separator | .sign .leftBrace | .sign .rightBrace | .sign .leftBracket => false
  | .keyword .elseWord | .endOfText => false
  | _ => true

/-- The tokens of a line.  No `if` on it begins a branch. -/
structure IsLine (tokens : List Token) : Prop where
  stay : ∀ token ∈ tokens, token.kind.staysOnLine = true
  noBranch : ∀ {before after : List Token} {token next : Token},
    tokens = before ++ token :: next :: after → token.kind = .keyword .ifWord →
      next.kind ≠ .sign .leftParen

namespace IsLine

variable {token : Token} {rest : List Token}

theorem tail (line : IsLine (token :: rest)) : IsLine rest where
  stay := (List.forall_mem_cons.mp line.stay).2
  noBranch := by
    rintro before after first next rfl
    exact line.noBranch (List.cons_append ..).symm

/-- The first token is none of those that leave the line. -/
theorem kind_ne (line : IsLine (token :: rest)) {kind : Kind}
    (leaves : kind.staysOnLine = false) : token.kind ≠ kind := by
  rintro rfl
  rw [line.stay token List.mem_cons_self] at leaves
  contradiction

/-- Behind an `if` there is no parenthesis. -/
theorem kind_ne_leftParen (line : IsLine (token :: rest)) (isIf : token.kind = .keyword .ifWord) :
    ∀ next ∈ rest.head?, next.kind ≠ .sign .leftParen := by
  intro next first
  cases rest with
  | nil => contradiction
  | cons other rest =>
      cases first
      exact line.noBranch (List.nil_append _).symm isIf

theorem noBrace (line : IsLine rest) : rest.head?.any Grammar.closesBlock = false := by
  cases rest with
  | nil => rfl
  | cons next rest =>
      have notBrace : next.kind ≠ .sign .rightBrace := line.kind_ne rfl
      simpa [Grammar.closesBlock] using notBrace

end IsLine

namespace Grammar

variable {α β γ δ : Type}

/-- The view that shows the end of a line as a separator, with other tokens behind it. -/
def View.line (separator : Token) (isSeparator : separator.kind = .separator)
    (behind : List Token) : View where
  map := id
  kind_map _ := rfl
  close := some separator
  kind_close := by simpa using isSeparator
  Shows tokens tokens' := IsLine tokens ∧ tokens' = tokens ++ separator :: behind
  nil := by
    rintro _ ⟨-, rfl⟩
    rfl
  cons := by
    rintro token rest _ ⟨line, rfl⟩
    exact ⟨rest ++ separator :: behind, rfl, line.tail, rfl⟩

/-! ## Reading up to the end of a line -/

/-- The first result is that all has been read, or both are the same failure. -/
inductive View.Ends (view : View) : Result α → Result β → Prop where
  | read {a : α} {result : Result β} : Ends view (.ok (a, [])) result
  | error {error : ParseError} {rest rest' : List Token} (shows : view.Shows rest rest') :
      Ends view (.error ⟨error, rest⟩) (.error ⟨view.error error, rest'⟩)

/-- On a line the first step reads all there is, or both steps fail in the same way. -/
def Step.EndsLine (view : View) (step : Step α) (step' : Step β) : Prop :=
  ∀ ⦃tokens tokens'⦄, view.Shows tokens tokens' → view.Ends (step.run tokens) (step'.run tokens')

theorem Step.Seen.bind_endsLine {view : View} {shown : α → β} {step : Step α} {step' : Step β}
    {next : α → Step γ} {next' : β → Step δ} (first : step.Seen view shown step')
    (second : ∀ a, (next a).EndsLine view (next' (shown a))) :
    (step >>= next).EndsLine view (step' >>= next') := by
  intro tokens tokens' shows
  rw [Step.run_bind, Step.run_bind]
  have same := first shows
  generalize step.run tokens = result, step'.run tokens' = result' at same ⊢
  cases same with
  | ok shows => exact second _ shows
  | error shows => exact .error shows

section Line

variable {separator : Token} {isSeparator : separator.kind = .separator} {behind : List Token}

/-- No bracket stands on a line inside of which separators are skipped. -/
theorem View.skipsInBrackets_line : (View.line separator isSeparator behind).SkipsInBrackets := by
  rintro token rest _ ⟨line, -⟩ (bracket | brace)
  · exact absurd bracket (line.kind_ne rfl)
  · exact absurd brace (line.kind_ne rfl)

theorem fail_endsLine (fault : ParseFault) :
    (Rule.fail fault : Rule α).step.EndsLine (View.line separator isSeparator behind)
      (Rule.fail fault : Rule β).step := by
  intro tokens tokens' shows
  rw [Rule.run_fail, Rule.run_fail, View.head?_eq shows]
  exact .error shows

/-- A statement ends at the end of the line, or it fails there and in front of other lines. -/
theorem endStatement_endsLine (ending : Ending) (a : α) (b : β) :
    (endStatement ending >>= fun _ => pure a).EndsLine (View.line separator isSeparator behind)
      (endStatement ending >>= fun _ => pure b) := by
  rintro tokens _ ⟨line, rfl⟩
  cases tokens with
  | nil => exact .read
  | cons token rest =>
      have notSeparator : token.kind ≠ .separator := line.kind_ne rfl
      have notBrace : token.kind ≠ .sign .rightBrace := line.kind_ne rfl
      have notElse : token.kind ≠ .keyword .elseWord := line.kind_ne rfl
      have fails : ∀ rest, (endStatement ending).run (token :: rest) =
          .error ⟨⟨.expectedSeparator ending, some token⟩, token :: rest⟩ := by
        intro rest
        simp [endStatement, Step.accept?, notSeparator, Step.next?, closesBlock, notBrace, notElse,
          Rule.run_fail]
      rw [Step.run_bind, Step.run_bind, List.cons_append, fails, fails]
      exact .error ⟨line, rfl⟩

section Rules

variable {expression : Rule Expr} {shown : Expr → Expr}
  (seen : expression.step.Seen (View.line separator isSeparator behind) shown expression.step)
include seen

theorem expressionStatement_endsLine :
    (expressionStatement expression).step.EndsLine (View.line separator isSeparator behind)
      (expressionStatement expression).step := by
  apply seen.bind_endsLine
  intro value
  exact endStatement_endsLine _ _ _

theorem letDeclaration_endsLine :
    (letDeclaration expression).EndsLine (View.line separator isSeparator behind)
      (letDeclaration expression) := by
  apply (Step.Seen.expect (by decide) _).bind_endsLine
  intro name
  apply (Step.Seen.accept? (.inl (by decide))).bind_endsLine
  intro equals
  cases equals with
  | none => exact endStatement_endsLine _ _ _
  | some equals =>
      apply seen.bind_endsLine
      intro initializer
      exact endStatement_endsLine _ _ _

theorem choice_endsLine :
    (choice expression).EndsLine (View.line separator isSeparator behind) (choice expression) := by
  apply seen.bind_endsLine
  intro condition
  apply (Step.Seen.expect (by decide) _).bind_endsLine
  intro comma
  apply (Step.Seen.expect (by decide) _).bind_endsLine
  intro doToken
  apply (Step.Seen.expect (by decide) _).bind_endsLine
  intro colon
  apply seen.bind_endsLine
  intro positive
  apply (Step.Seen.accept? (.inl (by decide))).bind_endsLine
  intro comma
  cases comma with
  | none => exact endStatement_endsLine _ _ _
  | some comma =>
      apply (Step.Seen.expect (by decide) _).bind_endsLine
      intro elseToken
      apply (Step.Seen.expect (by decide) _).bind_endsLine
      intro colon
      apply seen.bind_endsLine
      intro negative
      exact endStatement_endsLine _ _ _

end Rules

/-- A choice, since no parenthesis is next. -/
theorem conditional_of_ne {expression : Rule Expr} {statement : Clause Stmt} {tokens : List Token}
    (other : ∀ token ∈ tokens.head?, token.kind ≠ .sign .leftParen) :
    (conditional expression statement).run tokens = ([], (choice expression).run tokens) := by
  have notParen : tokens.head?.any (·.kind == .sign .leftParen) = false := by
    cases tokens with
    | nil => rfl
    | cons token rest => simpa using other token rfl
  simp [conditional, Step.next?, notParen]

/-- On a line the first course drops no declaration and reads all there is, or both courses drop
none and fail in the same way. -/
def Course.EndsLineAt (view : View) (course : Course α) (course' : Course β)
    (tokens tokens' : List Token) : Prop :=
  ∃ result result', course.run tokens = ([], result) ∧ course'.run tokens' = ([], result') ∧
    view.Ends result result'

theorem Step.EndsLine.ofStep {view : View} {step : Step α} {step' : Step β}
    (ends : step.EndsLine view step') {tokens tokens' : List Token}
    (shows : view.Shows tokens tokens') :
    (Course.ofStep step).EndsLineAt view (Course.ofStep step') tokens tokens' :=
  ⟨_, _, rfl, rfl, ends shows⟩

/-- What is selected by the first token ends with the line, and so does the other clause. -/
theorem endsLine_byToken {select : Token → Option (Course α)} {otherwise : Clause α}
    {tokens : List Token}
    (selects : ∀ {token rest next}, tokens = token :: rest → select token = some next →
      next.EndsLineAt (View.line separator isSeparator behind) next rest
        (rest ++ separator :: behind))
    (closes : select separator = none)
    (others : otherwise.course.EndsLineAt (View.line separator isSeparator behind)
      otherwise.course tokens (tokens ++ separator :: behind)) :
    (Clause.byToken select otherwise).course.EndsLineAt (View.line separator isSeparator behind)
      (Clause.byToken select otherwise).course tokens (tokens ++ separator :: behind) := by
  unfold Course.EndsLineAt
  cases tokens with
  | nil =>
      rw [List.nil_append, Clause.run_byToken_of_none closes]
      exact others
  | cons token rest =>
      rw [List.cons_append]
      cases selected : select token with
      | none =>
          rw [Clause.run_byToken_of_none selected, Clause.run_byToken_of_none selected]
          exact others
      | some next =>
          rw [Clause.run_byToken_of_some selected, Clause.run_byToken_of_some selected]
          exact selects rfl selected

/-- A statement on a line ends with the line, or it fails there and in front of other lines. -/
theorem statement_endsLine (room : Nat) {tokens : List Token} (line : IsLine tokens) :
    (statement room).course.EndsLineAt (View.line separator isSeparator behind)
      (statement room).course tokens (tokens ++ separator :: behind) := by
  cases room with
  | zero => exact (fail_endsLine _).ofStep ⟨line, rfl⟩
  | succ room =>
      have brackets : (View.line separator isSeparator behind).SkipsInBrackets :=
        View.skipsInBrackets_line
      have seen := expression_seen brackets room
      apply endsLine_byToken
      · rintro token rest next rfl selected
        split at selected
        · rename_i isBrace
          exact absurd isBrace (line.kind_ne rfl)
        · rename_i isIf
          cases selected
          have noParen := line.kind_ne_leftParen isIf
          have noParenLater : ∀ token ∈ (rest ++ separator :: behind).head?,
              token.kind ≠ .sign .leftParen := by
            cases rest with
            | nil => simp [isSeparator]
            | cons => exact noParen
          refine ⟨_, _, conditional_of_ne noParen, conditional_of_ne noParenLater, ?_⟩
          exact choice_endsLine seen ⟨line.tail, rfl⟩
        · contradiction
      · rw [isSeparator]
      · exact (expressionStatement_endsLine seen).ofStep ⟨line, rfl⟩

/-- A declaration on a line ends with the line, or it fails there and in front of other lines. -/
theorem declaration_endsLine (room : Nat) {tokens : List Token} (line : IsLine tokens) :
    (declaration (expression room) (statement room)).course.EndsLineAt
      (View.line separator isSeparator behind)
      (declaration (expression room) (statement room)).course tokens
        (tokens ++ separator :: behind) := by
  have brackets : (View.line separator isSeparator behind).SkipsInBrackets :=
    View.skipsInBrackets_line
  apply endsLine_byToken
  · rintro token rest next rfl selected
    split at selected
    · cases selected
      exact (letDeclaration_endsLine (expression_seen brackets room)).ofStep ⟨line.tail, rfl⟩
    · contradiction
  · simp [isSeparator]
  · exact statement_endsLine room line

end Line

/-! ## Behind a line -/

theorem behindLine_cons {token : Token} {rest : List Token}
    (notSeparator : token.kind ≠ .separator) (noBrace : rest.head?.any closesBlock = false) :
    behindLine (token :: rest) = behindLine rest := by
  rw [behindLine, if_neg]
  simp [Token.isSeparator, notSeparator, noBrace]

/-- Nothing is behind the last line. -/
theorem behindLine_of_line {rest : List Token} (line : IsLine rest) : behindLine rest = [] := by
  induction rest with
  | nil => rfl
  | cons token rest ih => rw [behindLine_cons (line.kind_ne rfl) line.tail.noBrace, ih line.tail]

/-- The rest of a line is skipped together with the separator behind it. -/
theorem behindLine_append {rest behind : List Token} {separator : Token} (line : IsLine rest)
    (isSeparator : separator.kind = .separator) :
    behindLine (rest ++ separator :: behind) = behind := by
  induction rest with
  | nil => simp [behindLine, Token.isSeparator, isSeparator]
  | cons token rest ih =>
      have noBrace : (rest ++ separator :: behind).head?.any closesBlock = false := by
        cases rest with
        | nil => simp [closesBlock, isSeparator]
        | cons next rest => exact line.tail.noBrace
      rw [List.cons_append, behindLine_cons (line.kind_ne rfl) noBrace, ih line.tail]

end Grammar

end Descriptor
