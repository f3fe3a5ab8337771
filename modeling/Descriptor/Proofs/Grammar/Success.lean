import Descriptor.Proofs.Grammar.Written
import Mathlib.Data.List.TakeWhile

/-!
# When the steps of a grammar succeed

One equivalence for each way to put steps together: the whole succeeds with a value and the tokens
behind it exactly when its parts do.  They are read from left to right to take a successful
reading apart, and from right to left to build one.
-/

namespace Descriptor

/-! ## Separators -/

/-- Skipping separators splits the tokens. -/
theorem exists_separators_append_dropWhile (tokens : List Token) :
    ∃ gap, Separators gap ∧ tokens = gap ++ tokens.dropWhile Token.isSeparator :=
  ⟨_, fun _ => List.mem_takeWhile_imp, List.takeWhile_append_dropWhile.symm⟩

/-- Separators in front of other tokens are skipped with the separators of these. -/
theorem Separators.dropWhile_append {gap : List Token} (separators : Separators gap)
    (rest : List Token) :
    (gap ++ rest).dropWhile Token.isSeparator = rest.dropWhile Token.isSeparator :=
  List.dropWhile_append_of_pos separators

theorem dropWhile_isSeparator_of_ne {token : Token} (other : token.kind ≠ .separator)
    (rest : List Token) : (token :: rest).dropWhile Token.isSeparator = token :: rest := by
  rw [List.dropWhile_cons_of_neg]
  simpa [Token.isSeparator] using other

theorem elseFollows_of_separators {gap rest : List Token} {token : Token}
    (separators : Separators gap) (isElse : token.kind = .keyword .elseWord) :
    elseFollows (gap ++ token :: rest) = true := by
  have other : token.kind ≠ .separator := by simp [isElse]
  simp [elseFollows, separators.dropWhile_append, dropWhile_isSeparator_of_ne other, isElse]

namespace Grammar

variable {α β : Type}

/-! ## Steps and rules -/

theorem Step.run_bind_eq_ok_iff {step : Step α} {next : α → Step β} {tokens rest : List Token}
    {b : β} :
    (step >>= next).run tokens = .ok (b, rest) ↔
      ∃ a middle, step.run tokens = .ok (a, middle) ∧ (next a).run middle = .ok (b, rest) := by
  rw [Step.run_bind]
  cases step.run tokens with
  | error failure => simp
  | ok read =>
      rcases read with ⟨a, middle⟩
      constructor
      · intro done
        exact ⟨a, middle, rfl, done⟩
      · rintro ⟨_, _, same, done⟩
        cases same
        exact done

theorem Step.run_pure_eq_ok_iff {a b : α} {tokens rest : List Token} :
    (pure a : Step α).run tokens = .ok (b, rest) ↔ b = a ∧ rest = tokens := by
  simp [eq_comm]

theorem Step.run_next?_eq_ok_iff {next : Option Token} {tokens rest : List Token} :
    Step.next?.run tokens = .ok (next, rest) ↔ next = tokens.head? ∧ rest = tokens := by
  simp [Step.next?, eq_comm]

theorem Step.run_skipSeparators_eq_ok_iff {tokens rest : List Token} {u : Unit} :
    Step.skipSeparators.run tokens = .ok (u, rest) ↔
      rest = tokens.dropWhile Token.isSeparator := by
  simp [Step.skipSeparators, eq_comm]

/-- An accepted token is of the kind, and otherwise nothing is read. -/
theorem Step.run_accept?_eq_ok_iff {kind : Kind} {tokens rest : List Token}
    {accepted : Option Token} :
    (Step.accept? kind).run tokens = .ok (accepted, rest) ↔
      (∃ token, accepted = some token ∧ token.kind = kind ∧ tokens = token :: rest) ∨
        (accepted = none ∧ (∀ token ∈ tokens.head?, token.kind ≠ kind) ∧ rest = tokens) := by
  cases tokens with
  | nil =>
      simp only [Step.accept?, Except.ok.injEq, Prod.mk.injEq]
      grind
  | cons token tokens =>
      by_cases same : token.kind = kind
      · simp only [Step.accept?, same, beq_self_eq_true, if_true, Except.ok.injEq, Prod.mk.injEq]
        grind
      · simp only [Step.accept?, beq_iff_eq, same, if_false, Except.ok.injEq, Prod.mk.injEq]
        grind

theorem Rule.run_expect_eq_ok_iff {kind : Kind} {fault : ParseFault} {tokens rest : List Token}
    {token : Token} :
    (Rule.expect kind fault).step.run tokens = .ok (token, rest) ↔
      token.kind = kind ∧ tokens = token :: rest := by
  cases tokens with
  | nil => simp [Rule.expect]
  | cons first tokens =>
      by_cases same : first.kind = kind
      · simp only [Rule.expect, same, beq_self_eq_true, if_true, Except.ok.injEq, Prod.mk.injEq]
        grind
      · simp only [Rule.expect, beq_iff_eq, same, if_false, reduceCtorEq]
        grind

theorem Rule.run_fail_ne_ok {fault : ParseFault} {tokens rest : List Token} {a : α} :
    (Rule.fail fault : Rule α).step.run tokens ≠ .ok (a, rest) := by
  simp [Rule.fail]

theorem Step.run_failAt_ne_ok {fault : ParseFault} {token : Token} {tokens rest : List Token}
    {a : α} : (Step.failAt fault token : Step α).run tokens ≠ .ok (a, rest) := by
  simp [Step.failAt]

theorem Rule.run_andThen_eq_ok_iff {rule : Rule α} {next : α → Step β}
    {tokens rest : List Token} {b : β} :
    (rule.andThen next).step.run tokens = .ok (b, rest) ↔
      ∃ a middle, rule.step.run tokens = .ok (a, middle) ∧
        (next a).run middle = .ok (b, rest) :=
  Step.run_bind_eq_ok_iff

/-- The next token is read if it is selected, and otherwise left to the other rule. -/
theorem Rule.run_byToken_eq_ok_iff {select : Token → Option (Step α)} {otherwise : Rule α}
    {tokens rest : List Token} {a : α} :
    (Rule.byToken select otherwise).step.run tokens = .ok (a, rest) ↔
      (∃ token behind next, tokens = token :: behind ∧ select token = some next ∧
        next.run behind = .ok (a, rest)) ∨
      ((∀ token ∈ tokens.head?, select token = none) ∧
        otherwise.step.run tokens = .ok (a, rest)) := by
  cases tokens with
  | nil => simp [Rule.byToken]
  | cons token tokens =>
      cases selected : select token with
      | none => simp [Rule.byToken, selected]
      | some next =>
          simp only [Rule.byToken, selected]
          constructor
          · intro done
            exact .inl ⟨token, tokens, next, rfl, selected, done⟩
          · rintro (⟨_, _, _, ⟨rfl, rfl⟩, same, done⟩ | ⟨unselected, _⟩)
            · rw [selected, Option.some.injEq] at same
              exact same ▸ done
            · simp [selected] at unselected

/-! ## Ends of statements -/

/-- What ends a statement is a separator, or nothing where none is needed. -/
theorem run_endStatement_eq_ok_iff {ending : Ending} {tokens rest : List Token} {u : Unit} :
    (endStatement ending).run tokens = .ok (u, rest) ↔
      ∃ terminator, Terminated terminator rest ∧ tokens = terminator ++ rest := by
  simp only [endStatement, Step.run_bind_eq_ok_iff, Step.run_accept?_eq_ok_iff]
  constructor
  · rintro ⟨accepted, left, ⟨separator, rfl, isSeparator, rfl⟩ | ⟨rfl, -, rfl⟩, done⟩
    · rcases Step.run_pure_eq_ok_iff.mp done with ⟨-, rfl⟩
      exact ⟨[separator], .separator (beq_iff_eq.mpr isSeparator), rfl⟩
    · simp only [Step.run_bind_eq_ok_iff, Step.run_next?_eq_ok_iff] at done
      rcases done with ⟨_, _, ⟨rfl, rfl⟩, done⟩
      split at done
      · rename_i ends
        rcases Step.run_pure_eq_ok_iff.mp done with ⟨-, rfl⟩
        exact ⟨[], .omitted ends, rfl⟩
      · exact absurd done Rule.run_fail_ne_ok
  · rintro ⟨terminator, terminated, rfl⟩
    cases terminated with
    | @separator token _ separates =>
        exact ⟨some token, rest, .inl ⟨token, rfl, beq_iff_eq.mp separates, rfl⟩, rfl⟩
    | omitted ends =>
        refine ⟨none, rest, .inr ⟨rfl, ?_, rfl⟩, ?_⟩
        · intro token first isSeparator
          rw [Option.mem_def, List.nil_append] at first
          simp [mayEnd, first, closesBlock, isSeparator] at ends
        · simp only [Step.run_bind_eq_ok_iff, Step.run_next?_eq_ok_iff]
          refine ⟨_, _, ⟨rfl, rfl⟩, ?_⟩
          unfold mayEnd at ends
          rw [if_pos ends]
          rfl

/-- An `else` is accepted behind separators, and otherwise nothing is read. -/
theorem run_acceptElse_eq_ok_iff {tokens rest : List Token} {found : Bool} :
    acceptElse.run tokens = .ok (found, rest) ↔
      (found = true ∧ ∃ gap token, Separators gap ∧ token.kind = .keyword .elseWord ∧
        tokens = gap ++ token :: rest) ∨
      (found = false ∧ elseFollows tokens = false ∧ rest = tokens) := by
  rcases exists_separators_append_dropWhile tokens with ⟨gap, separators, whole⟩
  constructor
  · intro done
    simp only [acceptElse] at done
    split at done
    · rename_i start
      cases done
      exact .inr ⟨rfl, by simp [elseFollows, start], rfl⟩
    · rename_i token behind start
      split at done
      · rename_i isElse
        cases done
        exact .inl ⟨rfl, gap, token, separators, beq_iff_eq.mp isElse, start ▸ whole⟩
      · rename_i other
        cases done
        exact .inr ⟨rfl, by simpa [elseFollows, start] using other, rfl⟩
  · rintro (⟨rfl, gap, token, separators, isElse, rfl⟩ | ⟨rfl, other, rfl⟩)
    · have start : (gap ++ token :: rest).dropWhile Token.isSeparator = token :: rest := by
        have other : token.kind ≠ .separator := by simp [isElse]
        rw [separators.dropWhile_append, dropWhile_isSeparator_of_ne other]
      simp [acceptElse, start, isElse]
    · cases start : rest.dropWhile Token.isSeparator with
      | nil => simp [acceptElse, start]
      | cons token behind =>
          have notElse : token.kind ≠ .keyword .elseWord := by
            simpa [elseFollows, start] using other
          simp [acceptElse, start, notElse]

/-! ## Courses and clauses -/

theorem Course.run_bind_eq_ok_iff {course : Course α} {next : α → Course β}
    {tokens rest : List Token} {errors : List ParseError} {b : β} :
    (course >>= next).run tokens = (errors, .ok (b, rest)) ↔
      ∃ first a middle later, course.run tokens = (first, .ok (a, middle)) ∧
        (next a).run middle = (later, .ok (b, rest)) ∧ errors = first ++ later := by
  rw [Course.run_bind]
  rcases course.run tokens with ⟨first, _ | ⟨a, middle⟩⟩
  · simp
  · simp only [Prod.mk.injEq, Except.ok.injEq]
    constructor
    · rintro ⟨rfl, done⟩
      exact ⟨first, a, middle, _, ⟨rfl, rfl, rfl⟩, Prod.ext rfl done, rfl⟩
    · rintro ⟨_, _, _, later, ⟨rfl, rfl, rfl⟩, done, rfl⟩
      rw [done]
      exact ⟨rfl, rfl⟩

theorem Course.run_pure_eq_ok_iff {a b : α} {tokens rest : List Token}
    {errors : List ParseError} :
    (pure a : Course α).run tokens = (errors, .ok (b, rest)) ↔
      errors = [] ∧ b = a ∧ rest = tokens := by
  simp [eq_comm]

theorem Course.run_ofStep_eq_ok_iff {step : Step α} {tokens rest : List Token}
    {errors : List ParseError} {a : α} :
    (Course.ofStep step).run tokens = (errors, .ok (a, rest)) ↔
      errors = [] ∧ step.run tokens = .ok (a, rest) := by
  simp [eq_comm]

/-- The next token is read if it is selected, and otherwise left to the other clause. -/
theorem Clause.run_byToken_eq_ok_iff {select : Token → Option (Course α)}
    {otherwise : Clause α} {tokens rest : List Token} {errors : List ParseError} {a : α} :
    (Clause.byToken select otherwise).course.run tokens = (errors, .ok (a, rest)) ↔
      (∃ token behind next, tokens = token :: behind ∧ select token = some next ∧
        next.run behind = (errors, .ok (a, rest))) ∨
      ((∀ token ∈ tokens.head?, select token = none) ∧
        otherwise.course.run tokens = (errors, .ok (a, rest))) := by
  cases tokens with
  | nil => simp [Clause.byToken]
  | cons token tokens =>
      cases selected : select token with
      | none => simp [Clause.byToken, selected]
      | some next =>
          simp only [Clause.byToken, selected]
          constructor
          · intro done
            exact .inl ⟨token, tokens, next, rfl, selected, done⟩
          · rintro (⟨_, _, _, ⟨rfl, rfl⟩, same, done⟩ | ⟨unselected, _⟩)
            · rw [selected, Option.some.injEq] at same
              exact same ▸ done
            · simp [selected] at unselected

end Grammar

end Descriptor
