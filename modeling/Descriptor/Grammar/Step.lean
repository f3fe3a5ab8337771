import Descriptor.Fault

/-!
# Steps and rules of a grammar

A step reads tokens from the front of a list and gives a value, or else a failure.  It never
reaches behind the end of the list and never puts a token back: what it leaves, in success and in
failure, is a suffix of what it was given.  A rule is a step that reads at least one token when
it succeeds.

Both facts are part of the types.  The combinators keep them, so a grammar that is put together
from them ends on every list of tokens.
-/

namespace Descriptor.Grammar

/-- A parse fault and the token it was found at, which is none at the end of the text. -/
structure ParseError where
  fault : ParseFault
  token : Option Token
  deriving DecidableEq

/-- Why a step failed, and the tokens from the place where it did. -/
structure Failure where
  error : ParseError
  rest : List Token
  deriving DecidableEq

/-- A value with the tokens behind it, or a failure. -/
abbrev Result (α : Type) := Except Failure (α × List Token)

/-- The tokens that are left. -/
def Result.rest {α : Type} : Result α → List Token
  | .ok (_, rest) => rest
  | .error failure => failure.rest

/-- Reads from the front of a list of tokens. -/
structure Step (α : Type) where
  run : List Token → Result α
  keeps : ∀ tokens, (run tokens).rest <:+ tokens

/-- Reads at least one token in success. -/
structure Rule (α : Type) where
  step : Step α
  consumes : ∀ {tokens : List Token} {a : α} {rest : List Token},
    step.run tokens = .ok (a, rest) → rest.length < tokens.length

variable {α β : Type}

namespace Step

theorem suffix_of_ok (step : Step α) {tokens rest : List Token} {a : α}
    (done : step.run tokens = .ok (a, rest)) : rest <:+ tokens := by
  simpa [done, Result.rest] using step.keeps tokens

theorem suffix_of_error (step : Step α) {tokens : List Token} {failure : Failure}
    (failed : step.run tokens = .error failure) : failure.rest <:+ tokens := by
  simpa [failed, Result.rest] using step.keeps tokens

/-! ## One step after another -/

/-- Gives a value and reads nothing. -/
protected def pure (a : α) : Step α where
  run tokens := .ok (a, tokens)
  keeps tokens := List.suffix_refl tokens

/-- Reads with one step and then, behind it, with the step that its value leads to. -/
protected def bind (step : Step α) (next : α → Step β) : Step β where
  run tokens :=
    match step.run tokens with
    | .ok (a, rest) => (next a).run rest
    | .error failure => .error failure
  keeps tokens := by
    split
    · rename_i a rest done
      exact ((next a).keeps rest).trans (step.suffix_of_ok done)
    · rename_i failure failed
      exact step.suffix_of_error failed

instance : Monad Step where
  pure := Step.pure
  bind := Step.bind

@[simp]
theorem run_pure (a : α) (tokens : List Token) :
    (pure a : Step α).run tokens = .ok (a, tokens) :=
  rfl

@[simp]
theorem run_bind (step : Step α) (next : α → Step β) (tokens : List Token) :
    (step >>= next).run tokens =
      match step.run tokens with
      | .ok (a, rest) => (next a).run rest
      | .error failure => .error failure :=
  rfl

/-! ## Single tokens -/

/-- Fails, at the given token. -/
def failAt (fault : ParseFault) (token : Token) : Step α where
  run tokens := .error ⟨⟨fault, some token⟩, tokens⟩
  keeps tokens := List.suffix_refl tokens

/-- The next token, which is not read. -/
def next? : Step (Option Token) where
  run tokens := .ok (tokens.head?, tokens)
  keeps tokens := List.suffix_refl tokens

/-- Reads the next token if it is of the given kind. -/
def accept? (kind : Kind) : Step (Option Token) where
  run tokens :=
    match tokens with
    | token :: rest => if token.kind == kind then .ok (some token, rest) else .ok (none, tokens)
    | [] => .ok (none, [])
  keeps tokens := by
    cases tokens with
    | nil => simp [Result.rest]
    | cons token rest =>
        simp only
        split <;> simp [Result.rest]

/-- Reads all separators up to the next other token. -/
def skipSeparators : Step Unit where
  run tokens := .ok ((), tokens.dropWhile Token.isSeparator)
  keeps _ := List.dropWhile_suffix Token.isSeparator

end Step

namespace Rule

/-- Fails, at the next token. -/
def fail (fault : ParseFault) : Rule α where
  step := {
    run tokens := .error ⟨⟨fault, tokens.head?⟩, tokens⟩
    keeps tokens := List.suffix_refl tokens }
  consumes done := by simp at done

/-- Reads the next token, which has to be of the given kind. -/
def expect (kind : Kind) (fault : ParseFault) : Rule Token where
  step := {
    run tokens :=
      match tokens with
      | token :: rest =>
          if token.kind == kind then .ok (token, rest) else .error ⟨⟨fault, token⟩, tokens⟩
      | [] => .error ⟨⟨fault, none⟩, []⟩
    keeps tokens := by
      cases tokens with
      | nil => simp [Result.rest]
      | cons token rest =>
          simp only
          split <;> simp [Result.rest] }
  consumes {tokens a rest} done := by
    cases tokens with
    | nil => simp at done
    | cons token tokens =>
        simp only at done
        split at done <;> grind

/-- Reads with a rule and then with a step. -/
def andThen (rule : Rule α) (next : α → Step β) : Rule β where
  step := rule.step >>= next
  consumes {tokens b rest} done := by
    simp only [Step.run_bind] at done
    split at done
    · rename_i a middle first
      have := (next a).suffix_of_ok done |>.length_le
      have := rule.consumes first
      omega
    · simp at done

/-- Reads the next token if `select` says how to go on behind it, and otherwise leaves it to
another rule. -/
def byToken (select : Token → Option (Step α)) (otherwise : Rule α) : Rule α where
  step := {
    run tokens :=
      match tokens with
      | token :: rest =>
          match select token with
          | some next => next.run rest
          | none => otherwise.step.run (token :: rest)
      | [] => otherwise.step.run []
    keeps tokens := by
      cases tokens with
      | nil => exact otherwise.step.keeps []
      | cons token rest =>
          simp only
          split
          · rename_i next _
            exact (next.keeps rest).trans (List.suffix_cons token rest)
          · exact otherwise.step.keeps (token :: rest) }
  consumes {tokens a left} done := by
    cases tokens with
    | nil => exact otherwise.consumes done
    | cons token rest =>
        simp only at done
        split at done
        · rename_i next _
          have := (next.suffix_of_ok done).length_le
          simp only [List.length_cons]
          omega
        · exact otherwise.consumes done

end Rule

/-! ## Repetition -/

namespace Step

/-- Goes on from `a` as long as `select` says how to go on behind the next token. -/
def extendFrom (select : Token → Option (α → Step α)) (a : α) (tokens : List Token) :
    Result α :=
  match tokens with
  | [] => .ok (a, [])
  | token :: rest =>
      match select token with
      | none => .ok (a, token :: rest)
      | some next =>
          match _done : (next a).run rest with
          | .ok (b, left) => extendFrom select b left
          | .error failure => .error failure
termination_by tokens.length
decreasing_by
  have := ((next a).suffix_of_ok _done).length_le
  simp only [List.length_cons]
  omega

theorem rest_extendFrom_suffix (select : Token → Option (α → Step α)) (a : α)
    (tokens : List Token) : (extendFrom select a tokens).rest <:+ tokens := by
  fun_induction extendFrom select a tokens with
  | case1 => simp [Result.rest]
  | case2 => simp [Result.rest]
  | case3 a token rest next selected b left done ih =>
      exact (ih.trans ((next a).suffix_of_ok done)).trans (List.suffix_cons token rest)
  | case4 a token rest next selected failure failed =>
      exact ((next a).suffix_of_error failed).trans (List.suffix_cons token rest)

/-- Goes on from `a` as long as `select` says how to go on behind the next token. -/
def extend (select : Token → Option (α → Step α)) (a : α) : Step α where
  run := extendFrom select a
  keeps := rest_extendFrom_suffix select a

/-- Reads items up to a token that closes them, which is not read, or to the end.  An item also
says whether another one may follow. -/
def itemsFrom (item : Rule (α × Bool)) (closes : Token → Bool) (tokens : List Token) :
    Result (List α) :=
  match tokens with
  | [] => .ok ([], [])
  | token :: rest =>
      if closes token then .ok ([], token :: rest)
      else
        match _done : item.step.run (token :: rest) with
        | .error failure => .error failure
        | .ok ((a, false), left) => .ok ([a], left)
        | .ok ((a, true), left) =>
            match itemsFrom item closes left with
            | .ok (items, left) => .ok (a :: items, left)
            | .error failure => .error failure
termination_by tokens.length
decreasing_by exact item.consumes _done

theorem rest_itemsFrom_suffix (item : Rule (α × Bool)) (closes : Token → Bool)
    (tokens : List Token) : (itemsFrom item closes tokens).rest <:+ tokens := by
  fun_induction itemsFrom item closes tokens with
  | case1 => simp [Result.rest]
  | case2 => simp [Result.rest]
  | case3 _ _ _ _ failed => exact item.step.suffix_of_error failed
  | case4 _ _ _ _ _ done => exact item.step.suffix_of_ok done
  | case5 _ _ _ _ _ done _ _ again ih =>
      rw [again] at ih
      exact List.IsSuffix.trans ih (item.step.suffix_of_ok done)
  | case6 _ _ _ _ _ done _ again ih =>
      rw [again] at ih
      exact List.IsSuffix.trans ih (item.step.suffix_of_ok done)

/-- Reads items up to a token that closes them, which is not read, or to the end.  An item also
says whether another one may follow. -/
def items (item : Rule (α × Bool)) (closes : Token → Bool) : Step (List α) where
  run := itemsFrom item closes
  keeps := rest_itemsFrom_suffix item closes

end Step

end Descriptor.Grammar
