import Descriptor.Proofs.Grammar.View.Line
import Descriptor.Proofs.Grammar.View.Within
import Descriptor.Proofs.Grammar.Writing.Continued
import Descriptor.Proofs.Grammar.Writing.Statement

/-!
# A rejected line is dropped by itself

A line that is rejected between an accepted program and any other tokens leaves one error, which
is found at a token of the line or at the separator behind it.  The program in front and what
stands behind the line are read as if they stood alone.
-/

namespace Descriptor

namespace Grammar

/-- Separators in front of declarations do not matter. -/
theorem declarationsFrom_dropWhile {α : Type} (inBlock : Bool) (declaration : Clause α)
    (tokens : List Token) :
    declarationsFrom inBlock declaration (tokens.dropWhile Token.isSeparator) =
      declarationsFrom inBlock declaration tokens := by
  rcases exists_separators_append_dropWhile tokens with ⟨gap, separators, whole⟩
  conv_rhs => rw [whole, declarationsFrom_of_separators separators]

/-- Where a line is rejected, it is by one error, and in front of other lines by the same one.
Behind it these are read. -/
theorem declarationsFrom_line (room : Nat) {tokens : List Token} {separator : Token}
    (line : IsLine tokens) (isSeparator : separator.kind = .separator) (behind : List Token)
    (rejected : (declarationsFrom false (declaration (expression room) (statement room))
      tokens).1 ≠ []) :
    ∃ error, (declarationsFrom false (declaration (expression room) (statement room)) tokens).1 =
        [error] ∧
      declarationsFrom false (declaration (expression room) (statement room))
          (tokens ++ separator :: behind) =
        let later := declarationsFrom false (declaration (expression room) (statement room)) behind
        (⟨error.fault, error.token.or (some separator)⟩ :: later.1, later.2.1, later.2.2) := by
  have none : declarationsFrom false (declaration (expression room) (statement room)) [] =
      ([], [], []) := declarationsFrom_of_nil rfl
  cases tokens with
  | nil => exact absurd (congrArg Prod.fst none) rejected
  | cons token rest =>
      have start : ∀ rest, (token :: rest).dropWhile Token.isSeparator = token :: rest :=
        dropWhile_isSeparator_of_ne (line.kind_ne rfl)
      have opens : ¬(false && closesBlock token) = true := by simp
      have endsLine : (declaration (expression room) (statement room)).course.EndsLineAt
          (View.line separator isSeparator behind) _ _ _ := declaration_endsLine room line
      rcases endsLine with ⟨result, result', ran, ran', ends⟩
      rw [List.cons_append] at ran' ⊢
      rw [declarationsFrom_of_opens (start _) opens] at rejected ⊢
      rw [declarationsFrom_of_opens (start (rest ++ separator :: behind)) opens]
      cases ends with
      | read =>
          simp only [attempt, ran, none] at rejected
          exact absurd rfl rejected
      | @error error rest rest' shows =>
          rcases shows with ⟨lineRest, rfl⟩
          simp only [attempt, ran, ran', resume, Bool.false_and, Bool.false_eq_true, if_false,
            behindLine_of_line lineRest, behindLine_append lineRest isSeparator,
            declarationsFrom_dropWhile, none]
          exact ⟨error, rfl, by simp [View.error, View.line]⟩

end Grammar

open Grammar

/-- Tokens without an end in front of others do not change what ends them. -/
theorem closingToken_append {used tokens : List Token}
    (noEnd : ∀ token ∈ used, token.isEnd = false) (nonempty : tokens ≠ []) :
    closingToken (used ++ tokens) = closingToken tokens := by
  have unfound : used.find? Token.isEnd = none := by
    rw [List.find?_eq_none]
    exact fun token member => by simp [noEnd token member]
  rw [closingToken, closingToken, List.find?_append, unfound, Option.none_or,
    List.getLast?_append_of_ne_nil used nonempty]

theorem readTokens_append {used : List Token} (noEnd : ∀ token ∈ used, token.isEnd = false)
    (tokens : List Token) : readTokens (used ++ tokens) = used ++ readTokens tokens :=
  List.takeWhile_append_of_pos fun token member => by simp [noEnd token member]

/-- Tokens without an end are all read. -/
theorem readTokens_of_noEnd {tokens : List Token} (noEnd : ∀ token ∈ tokens, token.isEnd = false) :
    readTokens tokens = tokens :=
  List.takeWhile_eq_self_iff.mpr fun token member => by simp [noEnd token member]

theorem readTokens_separator {separator : Token} (isSeparator : separator.kind = .separator)
    (tokens : List Token) : readTokens (separator :: tokens) = separator :: readTokens tokens :=
  List.takeWhile_cons_of_pos (by simp [Token.isEnd, isSeparator])

/-- No `else` stands where a rejected line begins. -/
theorem elseFollows_line {tokens : List Token} (line : IsLine tokens) (nonempty : tokens ≠ [])
    (behind : List Token) : elseFollows (tokens ++ behind) = false := by
  cases tokens with
  | nil => contradiction
  | cons token rest =>
      have notElse : token.kind ≠ .keyword .elseWord := line.kind_ne rfl
      rw [elseFollows, List.cons_append, dropWhile_isSeparator_of_ne (line.kind_ne rfl)]
      simpa using notElse

theorem isEnd_of_line {tokens : List Token} (line : IsLine tokens) :
    ∀ token ∈ tokens, token.isEnd = false := by
  intro token member
  rw [Token.isEnd, beq_eq_false_iff_ne]
  intro isEnd
  have stays := line.stay token member
  rw [isEnd] at stays
  contradiction

/-- The declarations of a whole list of tokens. -/
def readAll (tokens : List Token) : List ParseError × List Stmt :=
  let read := declarationsFrom false (declaration (expression nestingLimit)
    (statement nestingLimit)) (readTokens tokens)
  (read.1, read.2.1)

theorem parse_eq (tokens : List Token) :
    parse tokens = ((readAll tokens).2, (readAll tokens).1.map (·.report (closingToken tokens))) :=
  rfl

theorem readAll_nil : readAll [] = ([], []) := by
  rw [readAll, readTokens, List.takeWhile_nil, declarationsFrom_of_nil rfl]

/-- An accepted program, a rejected line and other tokens are read one after another. -/
theorem readAll_recovers {before line : List Token} {first second : Token}
    (noEnd : ∀ token ∈ before, token.isEnd = false) (accepted : (parse before).2 = [])
    (isFirst : first.kind = .separator) (isLine : IsLine line) (rejected : (parse line).2 ≠ [])
    (isSecond : second.kind = .separator) (after : List Token) :
    ∃ error, (readAll line).1 = [error] ∧
      readAll (before ++ first :: (line ++ second :: after)) =
        (⟨error.fault, error.token.or (some second)⟩ :: (readAll after).1,
          (parse before).1 ++ (readAll after).2) := by
  have nonempty : line ≠ [] := by
    rintro rfl
    rw [parse_eq, readAll_nil] at rejected
    exact rejected rfl
  have lineRead : readTokens line = line := readTokens_of_noEnd (isEnd_of_line isLine)
  have wholeRead : readTokens (before ++ first :: (line ++ second :: after)) =
      before ++ [first] ++ (line ++ second :: readTokens after) := by
    rw [readTokens_append noEnd, readTokens_separator isFirst,
      readTokens_append (isEnd_of_line isLine), readTokens_separator isSecond,
      List.append_assoc, List.singleton_append]
  have lineRejected : (readAll line).1 ≠ [] := by
    intro none
    rw [parse_eq, none] at rejected
    exact rejected rfl
  rw [readAll, lineRead] at lineRejected ⊢
  rcases declarationsFrom_line nestingLimit isLine isSecond (readTokens after) lineRejected with
    ⟨error, own, lineThenAfter⟩
  have program : parse before = ((parse before).1, []) := Prod.ext rfl accepted
  rcases parse_eq_iff.mp program with ⟨written, canonical, depth⟩
  rw [readTokens_of_noEnd noEnd] at written
  have separates : first.isSeparator = true := beq_iff_eq.mpr isFirst
  have completes := @declaration_completes _ _ (expression_completes nestingLimit) _
    (statement_completes nestingLimit)
  have beforeThenLine := declarationsFrom_append completes false
    (bodyWritten_append_separator separates (line ++ second :: readTokens after) written canonical)
    canonical depth (elseFollows_line isLine nonempty _)
  refine ⟨error, own, ?_⟩
  rw [readAll, wholeRead, beforeThenLine, lineThenAfter]
  rfl

/-- Recovery is local.  A line that is rejected by itself, between a program that is accepted and
any other tokens, leaves exactly one error, the one it has by itself, at one of its tokens or at
the separator behind it.  The statements in front of it are kept, and those behind it and their
errors are what they are without it. -/
theorem parse_recovers {before line after : List Token} {first second : Token}
    (noEnd : ∀ token ∈ before, token.isEnd = false) (accepted : (parse before).2 = [])
    (isFirst : first.kind = .separator) (isLine : IsLine line) (rejected : (parse line).2 ≠ [])
    (isSecond : second.kind = .separator) :
    ∃ error, parse (before ++ first :: (line ++ second :: after)) =
        ((parse before).1 ++ (parse after).1, error :: (parse after).2) ∧
      (parse line).2.map CompileError.fault = [error.fault] ∧
      ∃ token ∈ line ++ [second], error.line = token.line ∧ error.text = token.lexeme := by
  rcases readAll_recovers noEnd accepted isFirst isLine rejected isSecond after with
    ⟨error, own, whole⟩
  have errorsBehind : (readAll after).1.map (·.report (closingToken
      (before ++ first :: (line ++ second :: after)))) = (parse after).2 := by
    by_cases nonempty : after = []
    · subst nonempty
      rw [parse_eq, readAll_nil]
      rfl
    · have noEndBefore : ∀ token ∈ before ++ first :: (line ++ [second]), token.isEnd = false := by
        rw [List.forall_mem_append, List.forall_mem_cons, List.forall_mem_append,
          List.forall_mem_singleton]
        exact ⟨noEnd, by simp [Token.isEnd, isFirst], isEnd_of_line isLine,
          by simp [Token.isEnd, isSecond]⟩
      have sameEnd := closingToken_append noEndBefore nonempty
      simp only [List.append_assoc, List.cons_append, List.nil_append] at sameEnd
      rw [parse_eq, sameEnd]
  refine ⟨ParseError.report second ⟨error.fault, error.token.or (some second)⟩, ?_, ?_, ?_⟩
  · rw [parse_eq, whole, List.map_cons, errorsBehind]
    cases error.token <;> rfl
  · rw [parse_eq, own]
    rfl
  · cases isToken : error.token with
    | none => exact ⟨second, by simp, rfl, rfl⟩
    | some token =>
        have member := mem_of_mem_declarationsFrom false nestingLimit (readTokens line) error
          (own ▸ List.mem_singleton_self error) token isToken
        have inLine := (List.takeWhile_sublist _).subset member
        exact ⟨token, List.mem_append_left _ inLine, rfl, rfl⟩

/-- `a`, then `let = a` which lacks a name, and then two brackets that open nothing.  The error of
the middle line is at the `=` of it. -/
theorem parse_recovers_missing_name :
    let name : Token := ⟨.identifier, "a", 1⟩
    let separator : Token := ⟨.separator, ";", 1⟩
    let line : List Token := [⟨.keyword .letWord, "let", 1⟩, ⟨.sign .equal, "=", 1⟩, name]
    let after : List Token :=
      [⟨.sign .rightBrace, "\x7d", 1⟩, separator, ⟨.sign .rightParen, ")", 1⟩]
    (parse [name]).2 = [] ∧ (parse line).2 ≠ [] ∧
      ∃ error, parse ([name] ++ separator :: (line ++ separator :: after)) =
          ((parse [name]).1 ++ (parse after).1, error :: (parse after).2) ∧
        (parse line).2.map CompileError.fault = [error.fault] ∧
        ∃ token ∈ line ++ [separator], error.line = token.line ∧ error.text = token.lexeme := by
  intro name separator line after
  have isLine : IsLine line := by
    constructor
    · decide
    · intro before after token next whole isIf
      have noIf : ∀ token ∈ line, token.kind ≠ .keyword .ifWord := by decide
      have member : token ∈ line := by simp [whole]
      exact absurd isIf (noIf token member)
  have accepted : (parse [name]).2 = [] := by decide +kernel
  have rejected : (parse line).2 ≠ [] := by decide +kernel
  exact ⟨accepted, rejected, parse_recovers (by decide) accepted rfl isLine rejected rfl⟩

end Descriptor
