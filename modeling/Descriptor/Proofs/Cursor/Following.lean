import Descriptor.Proofs.Cursor.Site

/-!
# Machines that follow steps

A machine whose cursor stands in front of some of the tokens follows a step if it does to the
cursor what the step does to the list of these tokens.  It does not halt then, it leaves both
counters and the record as they were, and it reports an error exactly if it fails.

The relation is closed under all that rules are put together from.  So each rule of the machine
follows the rule of the grammar that is put together in the same way.
-/

namespace Descriptor.Cursor

open Grammar

variable {site : Site} {α β γ δ : Type}

/-! ## Following a step -/

/-- An outcome that is what a step gives on the tokens `unread`.  An error was found in front of
one of them, or at the end of the text, and no later than where the step failed. -/
inductive Matches (site : Site) (registers : Registers) (unread : List Token) (shown : α → β) :
    Outcome β → Result α → Prop where
  | ok {a : α} {rest : List Token} (forward : rest <:+ unread) :
      Matches site registers unread shown
        (.ok (.ok (shown a), site.facing rest registers)) (.ok (a, rest))
  | error {error : ParseError} {place rest : List Token} (isAt : place.head? = error.token)
      (ahead : place <:+ unread) (forward : rest <:+ place) :
      Matches site registers unread shown
        (.ok (.error (error.report site.close),
          (site.facing rest registers).report (error.report site.close)))
        (.error ⟨error, rest⟩)

/-- The machine does what the step does, where `room` levels are left.  It gives what the value of
the step is shown as. -/
def FollowsAs (site : Site) (room : Nat) (shown : α → β) (machine : Machine β) (step : Step α) :
    Prop :=
  ∀ ⦃registers unread⦄, nestingLimit - registers.nesting = room → unread <:+ site.text →
    Matches site registers unread shown
      (machine.run site.input (site.facing unread registers)) (step.run unread)

/-- The machine does what the step does, where `room` levels are left. -/
abbrev Follows (site : Site) (room : Nat) (machine : Machine α) (step : Step α) : Prop :=
  FollowsAs site room id machine step

variable {room : Nat}

namespace Matches

variable {registers : Registers} {unread : List Token} {shown : α → β}

/-- What was done on the last of some tokens was done on all of them. -/
theorem mono {outcome : Outcome β} {result : Result α} {tokens : List Token}
    (same : Matches site registers unread shown outcome result) (forward : unread <:+ tokens) :
    Matches site registers tokens shown outcome result := by
  cases same with
  | ok within => exact .ok (within.trans forward)
  | error isAt ahead within => exact .error isAt (ahead.trans forward) within

theorem given {a : α} {b : β} {rest : List Token} (same : b = shown a)
    (forward : rest <:+ unread) :
    Matches site registers unread shown (.ok (.ok b, site.facing rest registers))
      (.ok (a, rest)) :=
  same ▸ .ok forward

theorem fail (fault : ParseFault) {rest : List Token} (inside : rest <:+ site.text)
    (forward : rest <:+ unread) :
    Matches site registers unread shown
      ((failAtPeek fault : Machine β).run site.input (site.facing rest registers))
      (.error ⟨⟨fault, rest.head?⟩, rest⟩) := by
  rw [run_failAtPeek inside]
  exact .error rfl forward (List.suffix_refl rest)

/-- What is found wrong behind a token may be reported at the token. -/
theorem failAt (fault : ParseFault) {token : Token} {rest left : List Token}
    (forward : left <:+ token :: rest) :
    Matches site registers (token :: rest) shown
      ((failAt fault token : Machine β).run site.input (site.facing left registers))
      ((Step.failAt fault token : Step α).run left) := by
  let error : ParseError := ⟨fault, some token⟩
  have isAt : (token :: rest).head? = error.token := rfl
  exact .error isAt (List.suffix_refl _) forward

end Matches

namespace FollowsAs

variable {shown : α → β} {shown' : γ → δ}

theorem pure {a : α} {b : β} (same : b = shown a) :
    FollowsAs site room shown (Pure.pure b) (Pure.pure a) := by
  intro registers unread level inside
  subst same
  exact .ok (List.suffix_refl unread)

theorem bind {machine : Machine β} {step : Step α} {next : β → Machine δ} {next' : α → Step γ}
    (first : FollowsAs site room shown machine step)
    (second : ∀ a, FollowsAs site room shown' (next (shown a)) (next' a)) :
    FollowsAs site room shown' (machine >>= next) (step >>= next') := by
  intro registers unread level inside
  have same := first level inside
  rw [Machine.run_bind, Step.run_bind]
  generalize machine.run _ _ = outcome, step.run unread = result at same ⊢
  cases same with
  | ok forward => exact (second _ level (forward.trans inside)).mono forward
  | error isAt ahead forward => exact .error isAt ahead forward

theorem fail (fault : ParseFault) :
    FollowsAs site room shown (failAtPeek fault) (Rule.fail fault : Rule α).step :=
  fun _ unread _ inside => .fail fault inside (List.suffix_refl unread)

theorem check {kind : Kind} (notEnd : kind ≠ .endOfText) :
    FollowsAs site room (fun next => next.any (·.kind == kind)) (check kind) Step.next? := by
  intro registers unread level inside
  rw [run_check inside _ kind notEnd]
  exact .ok (List.suffix_refl unread)

theorem accept {kind : Kind} (notEnd : kind ≠ .endOfText) :
    FollowsAs site room Option.isSome (accept kind) (Step.accept? kind) := by
  intro registers unread level inside
  rcases Site.kind_cases kind unread with ⟨token, rest, rfl, isKind⟩ | other
  · rw [run_accept_of_kind inside _ isKind, Step.run_accept?_of_kind isKind]
    exact .given rfl (List.suffix_cons token rest)
  · rw [run_accept_of_ne notEnd inside _ other, Step.run_accept?_of_ne other]
    exact .given rfl (List.suffix_refl unread)

theorem consume {kind : Kind} (notEnd : kind ≠ .endOfText) (fault : ParseFault) :
    Follows site room (consume kind fault) (Rule.expect kind fault).step := by
  intro registers unread level inside
  rw [Cursor.consume, Machine.run_bind, run_check inside _ kind notEnd]
  rcases Site.kind_cases kind unread with ⟨token, rest, rfl, isKind⟩ | other
  · simp only [List.head?_cons, Option.any_some, isKind, beq_self_eq_true, if_true,
      run_advance inside, Rule.run_expect_of_kind isKind]
    exact .ok (List.suffix_cons token rest)
  · simp only [Site.any_head?_of_ne other, Bool.false_eq_true, if_false,
      Rule.run_expect_of_ne other]
    exact .fail fault inside (List.suffix_refl unread)

theorem skipSeparators : Follows site room skipSeparators Step.skipSeparators := by
  intro registers unread level inside
  rw [run_skipSeparators inside]
  exact .ok (List.dropWhile_suffix Token.isSeparator)

/-- Looking ahead for an `else` is reading separators and an `else`, or nothing. -/
theorem acceptElse : Follows site room acceptElse Grammar.acceptElse := by
  intro registers unread level inside
  have start := (List.dropWhile_suffix (l := unread) Token.isSeparator).trans inside
  have looked : (loop lookAhead (site.facing unread registers).current).run site.input
      (site.facing unread registers) =
        .ok (.ok (site.index (unread.dropWhile Token.isSeparator)), site.facing unread registers) :=
    run_loopFrom_lookAhead inside _ (Site.length_lt_turns inside)
  simp only [Cursor.acceptElse, Machine.run_bind, Cursor.registers, looked, run_tokenAt start,
    Grammar.acceptElse]
  cases isStart : unread.dropWhile Token.isSeparator with
  | nil =>
      simp only [Site.first, List.head?_nil, Option.getD_none, Site.kind_close]
      exact .given rfl (List.suffix_refl unread)
  | cons token rest =>
      rw [isStart] at start
      have forward : rest <:+ unread := (List.suffix_cons token rest).trans
        (isStart ▸ List.dropWhile_suffix Token.isSeparator)
      simp only [Site.first, List.head?_cons, Option.getD_some]
      by_cases isElse : (token.kind == .keyword .elseWord) = true
      · simp only [isElse, if_true, Machine.run_bind, moveTo, modify, ← Site.index_of_cons start]
        exact .given rfl forward
      · simp only [isElse]
        exact .given rfl (List.suffix_refl unread)

/-! ## Levels -/

/-- A rule one level deeper has one level less, and gives it back. -/
theorem nested {machine : Machine β} {step : Step α}
    (follows : FollowsAs site room shown machine step) :
    FollowsAs site (room + 1) shown (nested machine) step := by
  intro registers unread level inside
  have isOpen : registers.nesting < nestingLimit := by omega
  have deeper : nestingLimit - registers.enter.nesting = room := by
    change nestingLimit - (registers.nesting + 1) = room
    omega
  have same := follows deeper inside
  rw [run_nested machine unread isOpen]
  generalize step.run unread = result, machine.run site.input _ = outcome at same ⊢
  cases same with
  | ok forward => exact .ok forward
  | error isAt ahead forward => exact .error isAt ahead forward

/-- Where no level is left, every rule that opens one fails. -/
theorem nested_zero (machine : Machine β) :
    FollowsAs site 0 shown (Cursor.nested machine) (Rule.fail .tooDeeplyNested : Rule α).step := by
  intro registers unread level inside
  have full : nestingLimit ≤ (site.facing unread registers).nesting := by
    change nestingLimit ≤ registers.nesting
    omega
  simp only [Cursor.nested, Machine.run_bind, Cursor.registers, full, if_true]
  exact .fail .tooDeeplyNested inside (List.suffix_refl unread)

/-! ## Choices -/

/-- One kind of token less to choose by. -/
theorem byKind {kind : Kind} (notEnd : kind ≠ .endOfText) {machine machine' : Machine β}
    {select select' : Token → Option (Step α)} {next : Step α} {otherwise : Rule α}
    (selects : ∀ token, select token = if token.kind = kind then some next else select' token)
    (first : FollowsAs site room shown machine next)
    (others : FollowsAs site room shown machine' (Rule.byToken select' otherwise).step) :
    FollowsAs site room shown (do if ← Cursor.accept kind then machine else machine')
      (Rule.byToken select otherwise).step := by
  intro registers unread level inside
  rw [Machine.run_bind]
  rcases Site.kind_cases kind unread with ⟨token, rest, rfl, isKind⟩ | other
  · have insideRest := (List.suffix_cons token rest).trans inside
    rw [run_accept_of_kind inside _ isKind,
      Rule.run_byToken_of_some ((selects token).trans (if_pos isKind))]
    exact (first level insideRest).mono (List.suffix_cons token rest)
  · have same : (Rule.byToken select otherwise).step.run unread =
        (Rule.byToken select' otherwise).step.run unread := by
      cases unread with
      | nil => rfl
      | cons token rest =>
          simp only [Rule.byToken, selects token, if_neg (other token rfl)]
    rw [run_accept_of_ne notEnd inside _ other, same]
    exact others level inside

/-- The same next tokens are selected, and never the end. -/
theorem byToken {select : Token → Option (Machine β)} {select' : Token → Option (Step α)}
    {machine : Machine β} {otherwise : Rule α}
    (selects : ∀ token, Option.Rel (FollowsAs site room shown) (select token) (select' token))
    (atEnd : ∀ token, token.isEnd = true → select' token = none)
    (others : FollowsAs site room shown machine otherwise.step) :
    FollowsAs site room shown (Cursor.byToken select machine)
      (Rule.byToken select' otherwise).step := by
  intro registers unread level inside
  rw [Cursor.byToken, Machine.run_bind, run_peek inside]
  have selected := selects (site.first unread)
  generalize here : select (site.first unread) = next,
    there : select' (site.first unread) = next' at selected
  cases unread with
  | nil =>
      have unselected : select' (site.first []) = none := atEnd site.close site.isEnd
      rw [unselected] at there
      subst there
      cases selected
      simp only [here]
      exact others level inside
  | cons token rest =>
      have insideRest := (List.suffix_cons token rest).trans inside
      change select' token = next' at there
      cases selected with
      | none =>
          rw [Rule.run_byToken_of_none there]
          simp only [here]
          exact others level inside
      | some follows =>
          rw [Rule.run_byToken_of_some there]
          simp only [here, Machine.run_bind, run_advance inside]
          exact (follows level insideRest).mono (List.suffix_cons token rest)

/-! ## Repetition -/

end FollowsAs

section Turns

variable {ε ζ : Type} {registers : Registers} {unread rest : List Token} {shown : α → β ⊕ δ}
  {shown' : γ → δ} {body : β → Machine (β ⊕ δ)} {b : β} {turns : Nat}

/-- A loop ends where its turn leaves it. -/
theorem Matches.loop_of_inr {a : α} {c : γ}
    (turn : Matches site registers unread shown
      ((body b).run site.input (site.facing unread registers)) (.ok (a, rest)))
    (leaves : shown a = .inr (shown' c)) :
    Matches site registers unread shown'
      ((loopFrom body (turns + 1) b).run site.input (site.facing unread registers))
      (.ok (c, rest)) := by
  generalize turned : (body b).run site.input _ = outcome at turn
  cases turn with
  | ok forward =>
      rw [leaves] at turned
      rw [run_loopFrom_of_inr turns turned]
      exact .ok forward

/-- A loop goes on where its turn does not leave it. -/
theorem Matches.loop_of_inl {a : α} {next : β} {result : Result γ}
    (turn : Matches site registers unread shown
      ((body b).run site.input (site.facing unread registers)) (.ok (a, rest)))
    (goesOn : shown a = .inl next)
    (others : rest <:+ unread → Matches site registers rest shown'
      ((loopFrom body turns next).run site.input (site.facing rest registers)) result) :
    Matches site registers unread shown'
      ((loopFrom body (turns + 1) b).run site.input (site.facing unread registers)) result := by
  generalize turned : (body b).run site.input _ = outcome at turn
  cases turn with
  | ok forward =>
      rw [goesOn] at turned
      rw [run_loopFrom_of_inl turns turned]
      exact (others forward).mono forward

/-- A loop fails if its turn does. -/
theorem Matches.loop_of_error {failure : Failure}
    (turn : Matches site registers unread shown
      ((body b).run site.input (site.facing unread registers)) (.error failure)) :
    Matches site registers unread shown'
      ((loopFrom body (turns + 1) b).run site.input (site.facing unread registers))
      (.error failure) := by
  generalize turned : (body b).run site.input _ = outcome at turn
  cases turn with
  | error isAt ahead forward =>
      rw [run_loopFrom_of_error turns turned]
      exact .error isAt ahead forward

/-- A value may be shown from another one. -/
theorem Matches.reshown {outcome : Outcome δ} {before : β → δ} {b : β} {c : γ}
    (same : Matches site registers unread before outcome (.ok (b, rest)))
    (alike : before b = shown' c) :
    Matches site registers unread shown' outcome (.ok (c, rest)) := by
  cases same with
  | ok forward => exact .given alike forward

/-- A failure shows no value. -/
theorem Matches.failed {outcome : Outcome δ} {before : β → δ} {failure : Failure}
    (same : Matches site registers unread before outcome (.error failure)) :
    Matches site registers unread shown' outcome (.error failure) := by
  cases same with
  | error isAt ahead forward => exact .error isAt ahead forward

end Turns

namespace FollowsAs

section Extension

variable {select : Token → Option (α → Machine α)} {select' : Token → Option (α → Step α)}
  (selects : ∀ token, Option.Rel (fun next next' => ∀ a, Follows site room (next a) (next' a))
    (select token) (select' token))
include selects

theorem run_extendRound_of_none {a : α} {rest : List Token} (inside : rest <:+ site.text)
    (registers : Registers) (unselected : select' (site.first rest) = none) :
    (extendRound select a).run site.input (site.facing rest registers) =
      .ok (.ok (.inr a), site.facing rest registers) := by
  have same := selects (site.first rest)
  rw [unselected] at same
  generalize chosen : select (site.first rest) = next? at same
  cases same with
  | none =>
      simp only [extendRound, Machine.run_bind, run_peek inside, chosen]
      rfl

theorem extendRound_matches (a : α) {token : Token} {rest : List Token} {next' : α → Step α}
    (selected : select' token = some next') {registers : Registers}
    (level : nestingLimit - registers.nesting = room) (inside : token :: rest <:+ site.text) :
    Matches site registers (token :: rest) Sum.inl
      ((extendRound select a).run site.input (site.facing (token :: rest) registers))
      ((next' a).run rest) := by
  have same := selects token
  rw [selected] at same
  generalize chosen : select token = next? at same
  cases same with
  | some follows =>
      have insideRest := (List.suffix_cons token rest).trans inside
      have ran := follows a level insideRest
      simp only [extendRound, Machine.run_bind, run_peek inside, Site.first, List.head?_cons,
        Option.getD_some, chosen, run_advance inside]
      generalize (next' a).run rest = result at ran ⊢
      generalize Machine.run _ _ _ = outcome at ran ⊢
      cases ran with
      | ok forward => exact .ok (forward.trans (List.suffix_cons token rest))
      | error isAt ahead forward =>
          exact .error isAt (ahead.trans (List.suffix_cons token rest)) forward

theorem extend (atEnd : ∀ token, token.isEnd = true → select' token = none) (a : α) :
    Follows site room (Cursor.extend select a) (Step.extend select' a) := by
  intro registers unread level inside
  suffices repeated : ∀ turns, unread.length < turns → Matches site registers unread id
      ((loopFrom (extendRound select) turns a).run site.input (site.facing unread registers))
      (Step.extendFrom select' a unread) from repeated _ (Site.length_lt_turns inside)
  fun_induction Step.extendFrom select' a unread with
  | case1 a =>
      intro turns enough
      obtain ⟨turns, rfl⟩ := Nat.exists_eq_add_of_lt enough
      rw [run_loopFrom_of_inr _ (run_extendRound_of_none selects inside registers
        (atEnd _ site.isEnd))]
      exact .ok (List.suffix_refl [])
  | case2 a token rest unselected =>
      intro turns enough
      obtain ⟨turns, rfl⟩ := Nat.exists_eq_add_of_lt enough
      rw [run_loopFrom_of_inr _ (run_extendRound_of_none selects inside registers unselected)]
      exact .ok (List.suffix_refl _)
  | case3 a token rest next selected b left ran ih =>
      intro turns enough
      obtain ⟨turns, rfl⟩ := Nat.exists_eq_add_of_lt enough
      have turn := extendRound_matches selects a selected level inside
      rw [ran] at turn
      refine turn.loop_of_inl rfl fun forward => ih (forward.trans inside) _ ?_
      have shorter := ((next a).suffix_of_ok ran).length_le
      rw [List.length_cons]
      omega
  | case4 a token rest next selected failure failed =>
      intro turns enough
      obtain ⟨turns, rfl⟩ := Nat.exists_eq_add_of_lt enough
      have turn := extendRound_matches selects a selected level inside
      rw [failed] at turn
      exact turn.loop_of_error

end Extension

section Items

variable {item : Machine (α × Bool)} {item' : Rule (α × Bool)} {closing : Kind}

/-- No item is read at the end of the text or in front of a token that closes the items. -/
theorem run_itemRound_of_closes (notEnd : closing ≠ .endOfText) {read : List α}
    {rest : List Token} (inside : rest <:+ site.text) (registers : Registers)
    (closes : rest.head?.all (·.kind == closing) = true) :
    (itemRound item closing read).run site.input (site.facing rest registers) =
      .ok (.ok (.inr read), site.facing rest registers) := by
  have stops : (rest.head?.any (·.kind == closing) || rest.isEmpty) = true := by
    cases rest with
    | nil => rfl
    | cons token rest => simpa using closes
  simp only [itemRound, Machine.run_bind, run_check inside _ closing notEnd, run_isAtEnd inside,
    stops, if_true]
  rfl

theorem itemRound_matches (notEnd : closing ≠ .endOfText)
    (follows : Follows site room item item'.step) (read : List α) {token : Token}
    {rest : List Token} {registers : Registers} (level : nestingLimit - registers.nesting = room)
    (inside : token :: rest <:+ site.text) (opens : (token.kind == closing) = false) :
    Matches site registers (token :: rest)
      (fun found : α × Bool =>
        if found.2 then Sum.inl (read ++ [found.1]) else Sum.inr (read ++ [found.1]))
      ((itemRound item closing read).run site.input (site.facing (token :: rest) registers))
      (item'.step.run (token :: rest)) := by
  have ran := follows level inside
  simp only [itemRound, Machine.run_bind, run_check inside _ closing notEnd, run_isAtEnd inside,
    List.head?_cons, Option.any_some, opens, List.isEmpty_cons, Bool.or_self, Bool.false_eq_true,
    if_false]
  generalize item'.step.run (token :: rest) = result at ran ⊢
  generalize Machine.run _ _ _ = outcome at ran ⊢
  cases ran with
  | @ok found _ forward =>
      rcases found with ⟨a, _ | _⟩
      · exact .given rfl forward
      · exact .given rfl forward
  | error isAt ahead forward => exact .error isAt ahead forward

theorem items (notEnd : closing ≠ .endOfText) (follows : Follows site room item item'.step) :
    Follows site room (Cursor.items item closing) (Step.items item' (·.kind == closing)) := by
  intro registers unread level inside
  suffices repeated : ∀ turns read, unread.length < turns →
      Matches site registers unread (read ++ ·)
        ((loopFrom (itemRound item closing) turns read).run site.input
          (site.facing unread registers))
        (Step.itemsFrom item' (·.kind == closing) unread) from
    repeated _ [] (Site.length_lt_turns inside)
  fun_induction Step.itemsFrom item' (·.kind == closing) unread with
  | case1 =>
      intro turns read enough
      obtain ⟨turns, rfl⟩ := Nat.exists_eq_add_of_lt enough
      rw [run_loopFrom_of_inr _ (run_itemRound_of_closes notEnd inside registers rfl)]
      exact .given (List.append_nil read).symm (List.suffix_refl [])
  | case2 token rest closes =>
      intro turns read enough
      obtain ⟨turns, rfl⟩ := Nat.exists_eq_add_of_lt enough
      rw [run_loopFrom_of_inr _ (run_itemRound_of_closes notEnd inside registers closes)]
      exact .given (List.append_nil read).symm (List.suffix_refl _)
  | case3 token rest opens failure failed =>
      intro turns read enough
      obtain ⟨turns, rfl⟩ := Nat.exists_eq_add_of_lt enough
      have turn := itemRound_matches notEnd follows read level inside (Bool.eq_false_iff.mpr opens)
      rw [failed] at turn
      exact turn.loop_of_error
  | case4 token rest opens a left ran =>
      intro turns read enough
      obtain ⟨turns, rfl⟩ := Nat.exists_eq_add_of_lt enough
      have turn := itemRound_matches notEnd follows read level inside (Bool.eq_false_iff.mpr opens)
      rw [ran] at turn
      exact turn.loop_of_inr rfl
  | case5 token rest opens a left ran list last again ih =>
      intro turns read enough
      obtain ⟨turns, rfl⟩ := Nat.exists_eq_add_of_lt enough
      have turn := itemRound_matches notEnd follows read level inside (Bool.eq_false_iff.mpr opens)
      rw [ran] at turn
      have shorter := item'.consumes ran
      refine turn.loop_of_inl rfl fun forward => ?_
      have others := ih (forward.trans inside) ((token :: rest).length + turns) (read ++ [a])
        (by omega)
      rw [again] at others
      exact others.reshown (List.append_cons read a list).symm
  | case6 token rest opens a left ran failure again ih =>
      intro turns read enough
      obtain ⟨turns, rfl⟩ := Nat.exists_eq_add_of_lt enough
      have turn := itemRound_matches notEnd follows read level inside (Bool.eq_false_iff.mpr opens)
      rw [ran] at turn
      have shorter := item'.consumes ran
      refine turn.loop_of_inl rfl fun forward => ?_
      have others := ih (forward.trans inside) ((token :: rest).length + turns) (read ++ [a])
        (by omega)
      rw [again] at others
      exact others.failed

end Items

end FollowsAs

end Descriptor.Cursor
