import Descriptor.Proofs.Grammar.Reading.Expression

/-!
# Steps on what is written

What the steps of a grammar do where their parts succeed, as equations.  Rewriting with them runs
a rule on the tokens of a tree, one part after the other.
-/

namespace Descriptor.Grammar

variable {α β : Type}

/-! ## Steps and rules -/

theorem Step.run_bind_of_run {step : Step α} {next : α → Step β} {tokens rest : List Token} {a : α}
    (ran : step.run tokens = .ok (a, rest)) : (step >>= next).run tokens = (next a).run rest := by
  rw [Step.run_bind, ran]

theorem Rule.run_andThen_of_run {rule : Rule α} {next : α → Step β} {tokens rest : List Token}
    {a : α} (ran : rule.step.run tokens = .ok (a, rest)) :
    (rule.andThen next).step.run tokens = (next a).run rest :=
  Step.run_bind_of_run ran

theorem Rule.run_expect_of_kind {kind : Kind} {token : Token} (isKind : token.kind = kind)
    (fault : ParseFault) (rest : List Token) :
    (Rule.expect kind fault).step.run (token :: rest) = .ok (token, rest) :=
  Rule.run_expect_eq_ok_iff.mpr ⟨isKind, rfl⟩

theorem Step.run_accept?_of_kind {kind : Kind} {token : Token} (isKind : token.kind = kind)
    (rest : List Token) :
    (Step.accept? kind).run (token :: rest) = .ok (some token, rest) :=
  Step.run_accept?_eq_ok_iff.mpr (.inl ⟨token, rfl, isKind, rfl⟩)

theorem Step.run_accept?_of_ne {kind : Kind} {tokens : List Token}
    (other : ∀ token ∈ tokens.head?, token.kind ≠ kind) :
    (Step.accept? kind).run tokens = .ok (none, tokens) :=
  Step.run_accept?_eq_ok_iff.mpr (.inr ⟨rfl, other, rfl⟩)

theorem Step.run_next? (tokens : List Token) : Step.next?.run tokens = .ok (tokens.head?, tokens) :=
  rfl

/-- All separators of a gap are skipped, if no other ones stand behind it. -/
theorem Step.run_skipSeparators_of_gap {gap rest : List Token} (separators : Separators gap)
    (start : rest.dropWhile Token.isSeparator = rest) :
    Step.skipSeparators.run (gap ++ rest) = .ok ((), rest) := by
  apply Step.run_skipSeparators_eq_ok_iff.mpr
  rw [separators.dropWhile_append, start]

theorem Rule.run_byToken_of_some {select : Token → Option (Step α)} {otherwise : Rule α}
    {token : Token} {next : Step α} (selected : select token = some next) (rest : List Token) :
    (Rule.byToken select otherwise).step.run (token :: rest) = next.run rest := by
  simp only [Rule.byToken, selected]

theorem Rule.run_byToken_of_none {select : Token → Option (Step α)} {otherwise : Rule α}
    {token : Token} (unselected : select token = none) (rest : List Token) :
    (Rule.byToken select otherwise).step.run (token :: rest) =
      otherwise.step.run (token :: rest) := by
  simp only [Rule.byToken, unselected]

/-! ## Courses and clauses -/

theorem Course.run_bind_of_run {course : Course α} {next : α → Course β}
    {tokens rest : List Token} {a : α} (ran : course.run tokens = ([], .ok (a, rest))) :
    (course >>= next).run tokens = (next a).run rest := by
  rw [Course.run_bind, ran]
  rfl

theorem Course.run_ofStep_of_run {step : Step α} {tokens : List Token} {result : Result α}
    (ran : step.run tokens = result) : (Course.ofStep step).run tokens = ([], result) :=
  congrArg (Prod.mk []) ran

theorem Clause.run_byToken_of_some {select : Token → Option (Course α)} {otherwise : Clause α}
    {token : Token} {next : Course α} (selected : select token = some next) (rest : List Token) :
    (Clause.byToken select otherwise).course.run (token :: rest) = next.run rest := by
  simp only [Clause.byToken, selected]

theorem Clause.run_byToken_of_none {select : Token → Option (Course α)} {otherwise : Clause α}
    {token : Token} (unselected : select token = none) (rest : List Token) :
    (Clause.byToken select otherwise).course.run (token :: rest) =
      otherwise.course.run (token :: rest) := by
  simp only [Clause.byToken, unselected]

/-! ## Ends of statements -/

theorem run_endStatement_of_terminated {terminator rest : List Token}
    (terminated : Terminated terminator rest) (ending : Ending) :
    (endStatement ending).run (terminator ++ rest) = .ok ((), rest) :=
  run_endStatement_eq_ok_iff.mpr ⟨terminator, terminated, rfl⟩

theorem run_acceptElse_of_separators {gap rest : List Token} {token : Token}
    (separators : Separators gap) (isElse : token.kind = .keyword .elseWord) :
    acceptElse.run (gap ++ token :: rest) = .ok (true, rest) :=
  run_acceptElse_eq_ok_iff.mpr (.inl ⟨rfl, gap, token, separators, isElse, rfl⟩)

theorem run_acceptElse_of_elseFollows {tokens : List Token}
    (noElse : elseFollows tokens = false) : acceptElse.run tokens = .ok (false, tokens) :=
  run_acceptElse_eq_ok_iff.mpr (.inr ⟨rfl, noElse, rfl⟩)

/-! ## Repetition -/

/-- One extension more. -/
theorem Step.extendFrom_of_run {select : Token → Option (α → Step α)}
    {token : Token} {next : α → Step α} {a b : α} {tokens rest : List Token}
    (selected : select token = some next) (ran : (next a).run tokens = .ok (b, rest)) :
    Step.extendFrom select a (token :: tokens) = Step.extendFrom select b rest := by
  rw [Step.extendFrom]
  split
  · rename_i unselected
    rw [selected] at unselected
    contradiction
  · rename_i other same
    rw [selected, Option.some.injEq] at same
    subst same
    split
    · rename_i done
      rw [ran] at done
      cases done
      rfl
    · rename_i failed
      rw [ran] at failed
      contradiction

/-- No extension where none is selected. -/
theorem Step.extendFrom_of_unselected {select : Token → Option (α → Step α)} {a : α}
    {tokens : List Token} (unselected : ∀ token ∈ tokens.head?, select token = none) :
    Step.extendFrom select a tokens = .ok (a, tokens) := by
  cases tokens with
  | nil => rw [Step.extendFrom]
  | cons token tokens =>
      have : select token = none := unselected token rfl
      rw [Step.extendFrom, this]

/-- What an item rule does with the tokens that write an item: it reads the separators behind
them, and a comma with the separators behind it. -/
structure ItemWritten (Item : α → List Token → Prop) (closes : Token → Bool)
    (item : Rule (α × Bool)) : Prop where
  head : ∀ {a used}, Item a used →
    ∃ token rest, used = token :: rest ∧ token.isSeparator = false ∧ closes token = false
  last : ∀ {a used gap closing}, Item a used → Separators gap → closes closing = true → ∀ rest,
    ∃ more, item.step.run (used ++ (gap ++ closing :: rest)) = .ok ((a, more), closing :: rest)
  more : ∀ {a used gap comma behind rest}, Item a used → Separators gap →
    comma.kind = .sign .comma → Separators behind →
      rest.dropWhile Token.isSeparator = rest →
        item.step.run (used ++ (gap ++ comma :: (behind ++ rest))) = .ok ((a, true), rest)

/-- One item more. -/
theorem Step.itemsFrom_of_run {item : Rule (α × Bool)} {closes : Token → Bool}
    {token : Token} {tokens left rest : List Token} {a : α} {more : Bool} {list : List α}
    (opens : closes token = false)
    (ran : item.step.run (token :: tokens) = .ok ((a, more), left))
    (last : more = false → list = [] ∧ rest = left)
    (again : more = true → Step.itemsFrom item closes left = .ok (list, rest)) :
    Step.itemsFrom item closes (token :: tokens) = .ok (a :: list, rest) := by
  rw [Step.itemsFrom, if_neg (Bool.eq_false_iff.mp opens)]
  cases more with
  | false =>
      rcases last rfl with ⟨rfl, rfl⟩
      rw [ran]
  | true =>
      rw [ran]
      simp only [again rfl]

/-- No separators are skipped in front of items and the token that closes them. -/
theorem ItemWritten.dropWhile_items {Item : α → List Token → Prop}
    {closes : Token → Bool} {item : Rule (α × Bool)} (written : ItemWritten Item closes item)
    {list : List α} {used : List Token} {closing : Token} (items : Items Item list used)
    (other : closing.isSeparator = false) (rest : List Token) :
    (used ++ closing :: rest).dropWhile Token.isSeparator = used ++ closing :: rest := by
  cases items with
  | nil => simp [other]
  | last isItem _ =>
      rcases written.head isItem with ⟨token, tail, rfl, notSeparator, -⟩
      simp [notSeparator]
  | more isItem _ _ _ _ =>
      rcases written.head isItem with ⟨token, tail, rfl, notSeparator, -⟩
      simp [notSeparator]

/-- The tokens that write items are read as these items. -/
theorem Step.itemsFrom_of_items {Item : α → List Token → Prop} {closes : Token → Bool}
    {item : Rule (α × Bool)} (written : ItemWritten Item closes item) {list : List α}
    {used rest : List Token} {closing : Token} (items : Items Item list used)
    (closed : closes closing = true) (other : closing.isSeparator = false) :
    Step.itemsFrom item closes (used ++ closing :: rest) = .ok (list, closing :: rest) := by
  induction items with
  | nil => exact Step.itemsFrom_of_closes ⟨closing, rfl, closed⟩
  | last isItem separators =>
      rcases written.head isItem with ⟨token, tail, rfl, -, opens⟩
      rcases written.last isItem separators closed rest with ⟨more, ran⟩
      rw [List.append_assoc]
      exact Step.itemsFrom_of_run opens ran (fun _ => ⟨rfl, rfl⟩)
        (fun _ => Step.itemsFrom_of_closes ⟨closing, rfl, closed⟩)
  | more isItem separators isComma separatorsBehind items ih =>
      rcases written.head isItem with ⟨token, tail, rfl, -, opens⟩
      have ran := written.more isItem separators isComma separatorsBehind
        (written.dropWhile_items items other rest)
      simp only [List.append_assoc, List.cons_append] at ran ⊢
      exact Step.itemsFrom_of_run opens ran (fun last => absurd last (by decide)) (fun _ => ih)

/-! ## Lists of declarations -/

section Equations

variable {inBlock : Bool} {declaration : Clause α} {tokens : List Token}

/-- At the end of the text there is no declaration. -/
theorem declarationsFrom_of_nil (start : tokens.dropWhile Token.isSeparator = []) :
    declarationsFrom inBlock declaration tokens = ([], [], []) := by
  rw [declarationsFrom]
  split
  · rfl
  · rename_i other
    rw [start] at other
    contradiction

/-- Where a block ends there is no declaration. -/
theorem declarationsFrom_of_closes {token : Token} {rest : List Token}
    (start : tokens.dropWhile Token.isSeparator = token :: rest)
    (closes : (inBlock && closesBlock token) = true) :
    declarationsFrom inBlock declaration tokens = ([], [], token :: rest) := by
  rw [declarationsFrom]
  split
  · rename_i other
    rw [start] at other
    contradiction
  · rename_i same
    rw [start] at same
    cases same
    rw [dif_pos closes]

/-- Elsewhere one declaration is tried, and then those behind it. -/
theorem declarationsFrom_of_opens {token : Token} {rest : List Token}
    (start : tokens.dropWhile Token.isSeparator = token :: rest)
    (opens : ¬(inBlock && closesBlock token) = true) :
    declarationsFrom inBlock declaration tokens =
      ((attempt inBlock declaration (token :: rest)).1 ++ (declarationsFrom inBlock declaration
          (attempt inBlock declaration (token :: rest)).2.2).1,
        (attempt inBlock declaration (token :: rest)).2.1.toList ++ (declarationsFrom inBlock
          declaration (attempt inBlock declaration (token :: rest)).2.2).2.1,
        (declarationsFrom inBlock declaration
          (attempt inBlock declaration (token :: rest)).2.2).2.2) := by
  rw [declarationsFrom]
  split
  · rename_i other
    rw [start] at other
    contradiction
  · rename_i same
    rw [start] at same
    cases same
    rw [dif_neg opens]

end Equations

/-- Separators in front of declarations are skipped. -/
theorem declarationsFrom_of_separators {α : Type} {declaration : Clause α} {inBlock : Bool}
    {gap : List Token} (separators : Separators gap) (rest : List Token) :
    declarationsFrom inBlock declaration (gap ++ rest) =
      declarationsFrom inBlock declaration rest := by
  have skipped := separators.dropWhile_append rest
  cases start : rest.dropWhile Token.isSeparator with
  | nil =>
      rw [start] at skipped
      rw [declarationsFrom_of_nil skipped, declarationsFrom_of_nil start]
  | cons token tail =>
      rw [start] at skipped
      by_cases closes : (inBlock && closesBlock token) = true
      · rw [declarationsFrom_of_closes skipped closes, declarationsFrom_of_closes start closes]
      · rw [declarationsFrom_of_opens skipped closes, declarationsFrom_of_opens start closes]

end Descriptor.Grammar
