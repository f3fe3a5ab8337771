import Descriptor.Proofs.Grammar.Writing.Step

/-!
# Reading through a view

A view shows a list of tokens as another one, token by token.  It keeps the kinds of tokens, but
not their lines or lexemes, and it may show the end of the list as a separator.  `Step.Seen` says
that a step does on a list what another one does on what the view shows of it.  A step that looks
at nothing but kinds cannot tell the two lists apart.  Only where separators may stand, between
brackets, the two lists have to end together.
-/

namespace Descriptor

namespace Grammar

/-! ## Where steps fail -/

variable {α β γ δ : Type}

theorem Rule.run_fail (fault : ParseFault) (tokens : List Token) :
    (Rule.fail fault : Rule α).step.run tokens = .error ⟨⟨fault, tokens.head?⟩, tokens⟩ :=
  rfl

/-- Where the next token is of another kind, it is not read. -/
theorem Rule.run_expect_of_ne {kind : Kind} {fault : ParseFault} {tokens : List Token}
    (other : ∀ token ∈ tokens.head?, token.kind ≠ kind) :
    (Rule.expect kind fault).step.run tokens = .error ⟨⟨fault, tokens.head?⟩, tokens⟩ := by
  cases tokens with
  | nil => rfl
  | cons token rest => simp [Rule.expect, other token rfl]

theorem Step.extendFrom_of_failure {select : Token → Option (α → Step α)} {token : Token}
    {next : α → Step α} {a : α} {tokens : List Token} {failure : Failure}
    (selected : select token = some next) (failed : (next a).run tokens = .error failure) :
    Step.extendFrom select a (token :: tokens) = .error failure := by
  rw [Step.extendFrom]
  split
  · rename_i unselected
    rw [selected] at unselected
    contradiction
  · rename_i other same
    rw [selected, Option.some.injEq] at same
    subst same
    split
    · rename_i done
      rw [failed] at done
      contradiction
    · rename_i failed'
      rw [failed] at failed'
      cases failed'
      rfl

theorem Step.itemsFrom_of_failure {item : Rule (α × Bool)} {closes : Token → Bool}
    {token : Token} {tokens : List Token} {failure : Failure} (opens : closes token = false)
    (failed : item.step.run (token :: tokens) = .error failure) :
    Step.itemsFrom item closes (token :: tokens) = .error failure := by
  rw [Step.itemsFrom, if_neg (Bool.eq_false_iff.mp opens), failed]

theorem Step.itemsFrom_of_later_failure {item : Rule (α × Bool)} {closes : Token → Bool}
    {token : Token} {tokens left : List Token} {a : α} {failure : Failure}
    (opens : closes token = false)
    (ran : item.step.run (token :: tokens) = .ok ((a, true), left))
    (failed : Step.itemsFrom item closes left = .error failure) :
    Step.itemsFrom item closes (token :: tokens) = .error failure := by
  rw [Step.itemsFrom, if_neg (Bool.eq_false_iff.mp opens), ran]
  simp only [failed]

/-! ## Views -/

/-- How one list of tokens stands for another one. -/
structure View where
  /-- What a token is shown as. -/
  map : Token → Token
  kind_map : ∀ token, (map token).kind = token.kind
  /-- What the end of a list is shown as, if it is shown as a token. -/
  close : Option Token
  kind_close : ∀ token ∈ close, token.kind = .separator
  Shows : List Token → List Token → Prop
  nil : ∀ {tokens}, Shows [] tokens → tokens.head? = close
  cons : ∀ {token rest tokens}, Shows (token :: rest) tokens →
    ∃ rest', tokens = map token :: rest' ∧ Shows rest rest'

variable {view : View}

namespace View

/-- Nothing has to be known of the end if it is shown as no token. -/
theorem kind_of_none : ∀ token ∈ (none : Option Token), token.kind = .separator :=
  nofun

/-- Both lists end together, and separators can be skipped in both. -/
structure Skips (view : View) : Prop where
  close : view.close = none
  skip : ∀ {tokens tokens'}, view.Shows tokens tokens' →
    view.Shows (tokens.dropWhile Token.isSeparator) (tokens'.dropWhile Token.isSeparator)

/-- Separators can be skipped behind every bracket that the view shows. -/
def SkipsInBrackets (view : View) : Prop :=
  ∀ ⦃token rest tokens⦄, view.Shows (token :: rest) tokens →
    token.kind = .sign .leftBracket ∨ token.kind = .sign .leftBrace → view.Skips

/-- An error through a view. -/
def error (view : View) (error : ParseError) : ParseError :=
  ⟨error.fault, (error.token.map view.map).or view.close⟩

/-- Results that are the same through a view. -/
inductive Same (view : View) (shown : α → β) : Result α → Result β → Prop where
  | ok {a : α} {rest rest' : List Token} (shows : view.Shows rest rest') :
      Same view shown (.ok (a, rest)) (.ok (shown a, rest'))
  | error {error : ParseError} {rest rest' : List Token} (shows : view.Shows rest rest') :
      Same view shown (.error ⟨error, rest⟩) (.error ⟨view.error error, rest'⟩)

/-- What the next token is shown as. -/
theorem head?_eq {tokens tokens' : List Token} (shows : view.Shows tokens tokens') :
    tokens'.head? = (tokens.head?.map view.map).or view.close := by
  cases tokens with
  | nil => exact view.nil shows
  | cons token rest =>
      rcases view.cons shows with ⟨rest', rfl, -⟩
      rfl

/-- Tokens are shown to a test that asks for nothing but kinds as they are, if both lists end
together. -/
theorem Skips.any_shown (skips : view.Skips) {test : Token → Bool}
    (sameTest : ∀ token, test (view.map token) = test token) (next : Option Token) :
    ((next.map view.map).or view.close).any test = next.any test := by
  rw [skips.close, Option.or_none]
  cases next with
  | none => rfl
  | some token => exact sameTest token

/-- The end of a list is shown as no token that a rule asks for. -/
theorem kind_of_nil {tokens : List Token} (shows : view.Shows [] tokens) :
    ∀ token ∈ tokens.head?, token.kind = .separator := by
  rw [view.nil shows]
  exact view.kind_close

end View

/-- Whatever the first step does on a list, the second one does on what the view shows of it. -/
def Step.Seen (view : View) (shown : α → β) (step : Step α) (step' : Step β) : Prop :=
  ∀ ⦃tokens tokens'⦄, view.Shows tokens tokens' →
    view.Same shown (step.run tokens) (step'.run tokens')

/-! ## Steps through a view -/

namespace Step.Seen

variable {shown : α → β} {shown' : γ → δ}

theorem pure {a : α} {b : β} (same : b = shown a) :
    Step.Seen view shown (Pure.pure a) (Pure.pure b) := by
  intro tokens tokens' shows
  subst same
  exact .ok shows

theorem bind {step : Step α} {step' : Step β} {next : α → Step γ} {next' : β → Step δ}
    (first : step.Seen view shown step')
    (second : ∀ a, (next a).Seen view shown' (next' (shown a))) :
    (step >>= next).Seen view shown' (step' >>= next') := by
  intro tokens tokens' shows
  rw [Step.run_bind, Step.run_bind]
  have same := first shows
  generalize step.run tokens = result, step'.run tokens' = result' at same ⊢
  cases same with
  | ok shows => exact second _ shows
  | error shows => exact .error shows

theorem failAt (fault : ParseFault) (token : Token) :
    (Step.failAt fault token : Step α).Seen view shown
      (Step.failAt fault (view.map token) : Step β) :=
  fun _ _ shows => .error shows

theorem next? :
    Step.next?.Seen view (fun next => (next.map view.map).or view.close) Step.next? := by
  intro tokens tokens' shows
  rw [Step.run_next?, Step.run_next?, View.head?_eq shows]
  exact .ok shows

/-- A token is accepted on both sides if separators are not asked for, or are not made up. -/
theorem accept? {kind : Kind} (asked : kind ≠ .separator ∨ view.close = none) :
    (Step.accept? kind).Seen view (Option.map view.map) (Step.accept? kind) := by
  intro tokens tokens' shows
  cases tokens with
  | nil =>
      have other : ∀ token ∈ tokens'.head?, token.kind ≠ kind := by
        intro token first
        rcases asked with notSeparator | none
        · rw [View.kind_of_nil shows token first]
          exact notSeparator.symm
        · rw [view.nil shows, none] at first
          contradiction
      rw [Step.run_accept?_of_ne other]
      exact .ok shows
  | cons token rest =>
      rcases view.cons shows with ⟨rest', rfl, showsRest⟩
      by_cases same : token.kind = kind
      · rw [Step.run_accept?_of_kind same,
          Step.run_accept?_of_kind ((view.kind_map token).trans same)]
        exact .ok showsRest
      · have other : ∀ next ∈ (view.map token :: rest').head?, next.kind ≠ kind := by
          rintro _ ⟨⟩
          rwa [view.kind_map]
        rw [Step.run_accept?_of_ne (by rintro _ ⟨⟩; exact same), Step.run_accept?_of_ne other]
        exact .ok shows

theorem skipSeparators (skips : view.Skips) :
    Step.skipSeparators.Seen view id Step.skipSeparators :=
  fun _ _ shows => .ok (skips.skip shows)

theorem fail (fault : ParseFault) :
    (Rule.fail fault : Rule α).step.Seen view shown (Rule.fail fault : Rule β).step := by
  intro tokens tokens' shows
  rw [Rule.run_fail, Rule.run_fail, View.head?_eq shows]
  exact .error shows

theorem expect {kind : Kind} (asked : kind ≠ .separator) (fault : ParseFault) :
    (Rule.expect kind fault).step.Seen view view.map (Rule.expect kind fault).step := by
  intro tokens tokens' shows
  cases tokens with
  | nil =>
      have other : ∀ token ∈ tokens'.head?, token.kind ≠ kind := by
        intro token first
        rw [View.kind_of_nil shows token first]
        exact asked.symm
      rw [Rule.run_expect_of_ne (by simp), Rule.run_expect_of_ne other, View.head?_eq shows]
      exact .error shows
  | cons token rest =>
      have head := View.head?_eq shows
      rcases view.cons shows with ⟨rest', rfl, showsRest⟩
      by_cases same : token.kind = kind
      · rw [Rule.run_expect_of_kind same,
          Rule.run_expect_of_kind ((view.kind_map token).trans same)]
        exact .ok showsRest
      · have other : ∀ next ∈ (view.map token :: rest').head?, next.kind ≠ kind := by
          rintro _ ⟨⟩
          rwa [view.kind_map]
        rw [Rule.run_expect_of_ne (by rintro _ ⟨⟩; exact same), Rule.run_expect_of_ne other, head]
        exact .error shows

/-- The next token is selected on both sides or on neither, and it is never the end. -/
theorem byToken {select : Token → Option (Step α)} {select' : Token → Option (Step β)}
    {otherwise : Rule α} {otherwise' : Rule β}
    (selects : ∀ ⦃token rest tokens⦄, view.Shows (token :: rest) tokens →
      Option.Rel (Step.Seen view shown) (select token) (select' (view.map token)))
    (closes : ∀ token, token.kind = .separator → select' token = none)
    (others : otherwise.step.Seen view shown otherwise'.step) :
    (Rule.byToken select otherwise).step.Seen view shown
      (Rule.byToken select' otherwise').step := by
  intro tokens tokens' shows
  have same := others shows
  cases tokens with
  | nil =>
      cases tokens' with
      | nil => exact same
      | cons token rest =>
          have unselected := closes token (View.kind_of_nil shows token rfl)
          rw [Rule.run_byToken_of_none unselected]
          exact same
  | cons token rest =>
      have selected := selects shows
      rcases view.cons shows with ⟨rest', rfl, showsRest⟩
      generalize here : select token = next, there : select' (view.map token) = next' at selected
      cases selected with
      | none =>
          rw [Rule.run_byToken_of_none here, Rule.run_byToken_of_none there]
          exact same
      | some seen =>
          rw [Rule.run_byToken_of_some here, Rule.run_byToken_of_some there]
          exact seen showsRest

/-- Both sides are extended by the same tokens. -/
theorem extend {select : Token → Option (α → Step α)} {select' : Token → Option (β → Step β)}
    (selects : ∀ token, Option.Rel
      (fun next next' => ∀ a, (next a).Seen view shown (next' (shown a)))
      (select token) (select' (view.map token)))
    (closes : ∀ token, token.kind = .separator → select' token = none) (a : α) :
    (Step.extend select a).Seen view shown (Step.extend select' (shown a)) := by
  intro tokens tokens' shows
  have exists_next : ∀ {token next}, select token = some next →
      ∃ next', select' (view.map token) = some next' ∧
        ∀ a, (next a).Seen view shown (next' (shown a)) := by
    intro token next here
    have selected := selects token
    rw [here] at selected
    generalize select' (view.map token) = next' at selected
    cases selected with
    | some seen => exact ⟨_, rfl, seen⟩
  change view.Same shown (Step.extendFrom select a tokens)
    (Step.extendFrom select' (shown a) tokens')
  fun_induction Step.extendFrom select a tokens generalizing tokens' with
  | case1 a =>
      rw [Step.extendFrom_of_unselected fun token first =>
        closes token (View.kind_of_nil shows token first)]
      exact .ok shows
  | case2 a token rest unselected =>
      have selected := selects token
      rcases view.cons shows with ⟨rest', rfl, -⟩
      rw [unselected] at selected
      rw [Step.extendFrom_of_unselected]
      · exact .ok shows
      · rintro _ ⟨⟩
        generalize select' (view.map token) = next' at selected
        cases selected
        rfl
  | case3 a token rest next here b left ran ih =>
      rcases view.cons shows with ⟨rest', rfl, showsRest⟩
      rcases exists_next here with ⟨next', there, seen⟩
      have same := seen a showsRest
      rw [ran] at same
      generalize ran' : (next' (shown a)).run rest' = result at same
      cases same with
      | ok showsLeft =>
          rw [Step.extendFrom_of_run there ran']
          exact ih showsLeft
  | case4 a token rest next here failure failed =>
      rcases view.cons shows with ⟨rest', rfl, showsRest⟩
      rcases exists_next here with ⟨next', there, seen⟩
      have same := seen a showsRest
      rw [failed] at same
      generalize failed' : (next' (shown a)).run rest' = result at same
      cases same with
      | error showsLeft =>
          rw [Step.extendFrom_of_failure there failed']
          exact .error showsLeft

/-- The same items are read on both sides, if both end together. -/
theorem items {item : Rule (α × Bool)} {item' : Rule (β × Bool)} {closes : Token → Bool}
    (skips : view.Skips) (sameCloses : ∀ token, closes (view.map token) = closes token)
    (seen : item.step.Seen view (Prod.map shown id) item'.step) :
    (Step.items item closes).Seen view (List.map shown) (Step.items item' closes) := by
  intro tokens tokens' shows
  change view.Same (List.map shown) (Step.itemsFrom item closes tokens)
    (Step.itemsFrom item' closes tokens')
  fun_induction Step.itemsFrom item closes tokens generalizing tokens' with
  | case1 =>
      have none := view.nil shows
      rw [skips.close, List.head?_eq_none_iff] at none
      subst none
      rw [Step.itemsFrom]
      exact .ok shows
  | case2 token rest closed =>
      rcases view.cons shows with ⟨rest', rfl, -⟩
      rw [Step.itemsFrom_of_closes ⟨_, rfl, (sameCloses token).trans closed⟩]
      exact .ok shows
  | case3 token rest opens failure failed =>
      have same := seen shows
      rcases view.cons shows with ⟨rest', rfl, -⟩
      rw [failed] at same
      generalize failed' : item'.step.run _ = result at same
      cases same with
      | error showsLeft =>
          rw [Step.itemsFrom_of_failure (by simpa [sameCloses] using opens) failed']
          exact .error showsLeft
  | case4 token rest opens a left ran =>
      have same := seen shows
      rcases view.cons shows with ⟨rest', rfl, -⟩
      rw [ran] at same
      generalize ran' : item'.step.run _ = result at same
      cases same with
      | ok showsLeft =>
          rw [Step.itemsFrom_of_run (by simpa [sameCloses] using opens) ran'
            (fun _ => ⟨rfl, rfl⟩) (fun more => absurd more Bool.false_ne_true)]
          exact .ok showsLeft
  | case5 token rest opens a left ran list last again ih =>
      have same := seen shows
      rcases view.cons shows with ⟨rest', rfl, -⟩
      rw [ran] at same
      generalize ran' : item'.step.run _ = result at same
      cases same with
      | @ok _ _ left' showsLeft =>
          have sameItems := ih showsLeft
          rw [again] at sameItems
          generalize again' : Step.itemsFrom item' closes left' = result at sameItems
          cases sameItems with
          | ok showsLast =>
              rw [Step.itemsFrom_of_run (by simpa [sameCloses] using opens) ran'
                (fun more => absurd more Bool.true_eq_false.mp) (fun _ => again')]
              exact .ok showsLast
  | case6 token rest opens a left ran failure failed ih =>
      have same := seen shows
      rcases view.cons shows with ⟨rest', rfl, -⟩
      rw [ran] at same
      generalize ran' : item'.step.run _ = result at same
      cases same with
      | @ok _ _ left' showsLeft =>
          have sameItems := ih showsLeft
          rw [failed] at sameItems
          generalize failed' : Step.itemsFrom item' closes left' = result at sameItems
          cases sameItems with
          | error showsLast =>
              rw [Step.itemsFrom_of_later_failure (by simpa [sameCloses] using opens) ran' failed']
              exact .error showsLast

end Step.Seen

end Grammar

end Descriptor
