import Descriptor.Proofs.Cursor.Machine
import Descriptor.Proofs.Grammar.View.Step

/-!
# Where the cursor stands

The tokens in front of which a machine stands end at the first end of the text behind its cursor.
From there on the single operations of the machine are equations: each of them finds a token at
its index, and moves the cursor as its list counterpart shortens the list of these tokens.  Its
loops leave before they run out of turns, since every turn uses up a token.
-/

namespace Descriptor.Cursor

open Grammar

/-- A text among the tokens of a machine, with the end of the text behind it. -/
structure Site where
  input : Input
  front : List Token
  text : List Token
  close : Token
  behind : List Token
  whole : input.tokens.toList = front ++ (text ++ close :: behind)
  noEnd : ∀ token ∈ text, token.isEnd = false
  isEnd : close.isEnd = true
  enoughTurns : text.length < input.turns

namespace Site

variable (site : Site)

/-- The index of the first of the tokens `rest`, with which the text ends. -/
def index (rest : List Token) : Nat :=
  site.front.length + (site.text.length - rest.length)

/-- The token at that index. -/
def first (rest : List Token) : Token :=
  rest.head?.getD site.close

/-- The registers, with the cursor in front of `rest`. -/
def facing (rest : List Token) (registers : Registers) : Registers :=
  { registers with current := site.index rest }

theorem enter_facing (rest : List Token) (registers : Registers) :
    (site.facing rest registers).enter = site.facing rest registers.enter :=
  rfl

theorem enterBlock_facing (rest : List Token) (registers : Registers) :
    (site.facing rest registers).enterBlock = site.facing rest registers.enterBlock :=
  rfl

variable {site : Site}

theorem tokens_index {rest : List Token} (inside : rest <:+ site.text) :
    site.input.tokens[site.index rest]? = some (site.first rest) := by
  rcases inside with ⟨used, whole⟩
  have position : site.index rest = (site.front ++ used).length := by
    simp [index, ← whole]
  rw [position, ← Array.getElem?_toList, site.whole, ← whole, List.append_assoc,
    ← List.append_assoc, List.getElem?_append_right (Nat.le_refl _), Nat.sub_self]
  cases rest <;> rfl

theorem index_of_cons {token : Token} {rest : List Token} (inside : token :: rest <:+ site.text) :
    site.index rest = site.index (token :: rest) + 1 := by
  have shorter := inside.length_le
  simp only [index, List.length_cons] at shorter ⊢
  omega

theorem index_mono {rest tokens : List Token} (forward : rest <:+ tokens) :
    site.index tokens ≤ site.index rest := by
  have shorter := forward.length_le
  simp only [index]
  omega

theorem index_lt {rest tokens : List Token} (inside : tokens <:+ site.text)
    (shorter : rest.length < tokens.length) : site.index tokens < site.index rest := by
  have within := inside.length_le
  simp only [index]
  omega

theorem index_lt_size {rest : List Token} (inside : rest <:+ site.text) :
    site.index rest < site.input.tokens.size := by
  by_contra outside
  have missing := tokens_index inside
  rw [Array.getElem?_eq_none (Nat.le_of_not_lt outside)] at missing
  contradiction

theorem isEnd_first {rest : List Token} (inside : rest <:+ site.text) :
    (site.first rest).isEnd = rest.isEmpty := by
  cases rest with
  | nil => exact site.isEnd
  | cons token rest => exact site.noEnd token (inside.subset List.mem_cons_self)

/-- The end of the text is of no other kind. -/
theorem kind_close : site.close.kind = .endOfText :=
  beq_iff_eq.mp site.isEnd

/-- Whether the first token is of a kind can be told from the list, if it is not the end. -/
theorem kind_first {kind : Kind} (notEnd : kind ≠ .endOfText) (rest : List Token) :
    ((site.first rest).kind == kind) = rest.head?.any (·.kind == kind) := by
  cases rest with
  | nil => simp [first, kind_close, notEnd.symm]
  | cons token rest => rfl

/-- Either some tokens begin with one of the given kind, or they do not. -/
theorem kind_cases (kind : Kind) (tokens : List Token) :
    (∃ token rest, tokens = token :: rest ∧ token.kind = kind) ∨
      ∀ token ∈ tokens.head?, token.kind ≠ kind := by
  cases tokens with
  | nil => exact .inr nofun
  | cons token rest =>
      by_cases isKind : token.kind = kind
      · exact .inl ⟨token, rest, rfl, isKind⟩
      · exact .inr fun _ isHead => Option.some.inj isHead ▸ isKind

theorem any_head?_of_ne {kind : Kind} {tokens : List Token}
    (other : ∀ token ∈ tokens.head?, token.kind ≠ kind) :
    tokens.head?.any (·.kind == kind) = false := by
  cases tokens with
  | nil => rfl
  | cons token rest => exact beq_eq_false_iff_ne.mpr (other token rfl)

end Site

variable {site : Site}

/-! ## Single tokens -/

section Tokens

variable {rest : List Token} (inside : rest <:+ site.text) (registers : Registers)
include inside

theorem run_tokenAt :
    (tokenAt (site.index rest)).run site.input registers =
      .ok (.ok (site.first rest), registers) := by
  simp only [tokenAt, Site.tokens_index inside]

theorem run_peek : peek.run site.input (site.facing rest registers) =
    .ok (.ok (site.first rest), site.facing rest registers) :=
  run_tokenAt inside _

theorem run_check (kind : Kind) (notEnd : kind ≠ .endOfText) :
    (check kind).run site.input (site.facing rest registers) =
      .ok (.ok (rest.head?.any (·.kind == kind)), site.facing rest registers) := by
  rw [check, Machine.run_bind, run_peek inside, ← Site.kind_first notEnd]
  rfl

theorem run_check_brace : (check (.sign .rightBrace)).run site.input (site.facing rest registers) =
    .ok (.ok (rest.head?.any closesBlock), site.facing rest registers) :=
  run_check inside registers (.sign .rightBrace) nofun

theorem run_isAtEnd : isAtEnd.run site.input (site.facing rest registers) =
    .ok (.ok rest.isEmpty, site.facing rest registers) := by
  rw [isAtEnd, Machine.run_bind, run_peek inside, ← Site.isEnd_first inside]
  rfl

theorem run_failAtPeek {α : Type} (fault : ParseFault) :
    (failAtPeek fault : Machine α).run site.input (site.facing rest registers) =
      let error := ParseError.report site.close ⟨fault, rest.head?⟩
      .ok (.error error, (site.facing rest registers).report error) := by
  rw [failAtPeek, Machine.run_bind, run_peek inside]
  rfl

end Tokens

section Reading

variable {token : Token} {rest : List Token} (inside : token :: rest <:+ site.text)
  (registers : Registers)
include inside

theorem run_moveOn : moveOn.run site.input (site.facing (token :: rest) registers) =
    .ok (.ok (), site.facing rest registers) := by
  simp only [Site.facing, Site.index_of_cons inside]
  rfl

theorem run_advance : advance.run site.input (site.facing (token :: rest) registers) =
    .ok (.ok token, site.facing rest registers) := by
  simp only [advance, Machine.run_bind, run_peek inside, run_isAtEnd inside, List.isEmpty_cons,
    Bool.false_eq_true, if_false, run_moveOn inside]
  rfl

theorem run_accept_of_kind {kind : Kind} (isKind : token.kind = kind) :
    (accept kind).run site.input (site.facing (token :: rest) registers) =
      .ok (.ok true, site.facing rest registers) := by
  have notEnd : kind ≠ .endOfText := by
    rintro rfl
    have := site.noEnd token (inside.subset List.mem_cons_self)
    simp [Token.isEnd, isKind] at this
  simp only [accept, Machine.run_bind, run_check inside _ kind notEnd, List.head?_cons,
    Option.any_some, isKind, beq_self_eq_true, if_true, run_isAtEnd inside, List.isEmpty_cons,
    Bool.false_eq_true, if_false, run_moveOn inside]
  rfl

end Reading

/-- At the end of the text nothing is read. -/
theorem run_advance_nil (registers : Registers) :
    advance.run site.input (site.facing [] registers) =
      .ok (.ok site.close, site.facing [] registers) := by
  simp only [advance, Machine.run_bind, run_peek List.nil_suffix, run_isAtEnd List.nil_suffix,
    List.isEmpty_nil, if_true]
  rfl

theorem run_accept_of_ne {kind : Kind} (notEnd : kind ≠ .endOfText) {rest : List Token}
    (inside : rest <:+ site.text) (registers : Registers)
    (other : ∀ token ∈ rest.head?, token.kind ≠ kind) :
    (accept kind).run site.input (site.facing rest registers) =
      .ok (.ok false, site.facing rest registers) := by
  simp only [accept, Machine.run_bind, run_check inside _ kind notEnd, Site.any_head?_of_ne other,
    Bool.false_eq_true, if_false]
  rfl

variable {α β : Type}

/-! ## Loops -/

section Loops

variable {body : α → Machine (α ⊕ β)} {input : Input} {registers registers' : Registers} {a : α}
  (turns : Nat)

theorem run_loopFrom_of_inl {b : α}
    (ran : (body a).run input registers = .ok (.ok (.inl b), registers')) :
    (loopFrom body (turns + 1) a).run input registers =
      (loopFrom body turns b).run input registers' := by
  rw [loopFrom, Machine.run_bind, ran]

theorem run_loopFrom_of_inr {b : β}
    (ran : (body a).run input registers = .ok (.ok (.inr b), registers')) :
    (loopFrom body (turns + 1) a).run input registers = .ok (.ok b, registers') := by
  rw [loopFrom, Machine.run_bind, ran]
  rfl

theorem run_loopFrom_of_error {error : CompileError}
    (ran : (body a).run input registers = .ok (.error error, registers')) :
    (loopFrom body (turns + 1) a).run input registers = .ok (.error error, registers') := by
  rw [loopFrom, Machine.run_bind, ran]

end Loops

/-- There are turns enough for each token that is left. -/
theorem Site.length_lt_turns {rest : List Token} (inside : rest <:+ site.text) :
    rest.length < site.input.turns :=
  Nat.lt_of_le_of_lt inside.length_le site.enoughTurns

theorem run_loopFrom_skipSeparator {rest : List Token} (inside : rest <:+ site.text)
    (registers : Registers) {turns : Nat} (enough : rest.length < turns) :
    (loopFrom skipSeparator turns ()).run site.input (site.facing rest registers) =
      .ok (.ok (), site.facing (rest.dropWhile Token.isSeparator) registers) := by
  induction rest generalizing turns with
  | nil =>
      cases turns with
      | zero => contradiction
      | succ turns =>
          apply run_loopFrom_of_inr
          simp only [skipSeparator, Machine.run_bind, run_check inside _ .separator nofun,
            List.head?_nil, Option.any_none, Bool.false_eq_true, if_false]
          rfl
  | cons token rest ih =>
      cases turns with
      | zero => contradiction
      | succ turns =>
          have checked := run_check inside registers .separator nofun
          rw [List.head?_cons, Option.any_some, ← Token.isSeparator] at checked
          by_cases separates : token.isSeparator = true
          · have moved : (skipSeparator ()).run site.input (site.facing (token :: rest) registers) =
                .ok (.ok (.inl ()), site.facing rest registers) := by
              simp only [skipSeparator, Machine.run_bind, checked, separates, if_true,
                run_moveOn inside]
              rfl
            rw [run_loopFrom_of_inl turns moved, List.dropWhile_cons_of_pos separates]
            exact ih ((List.suffix_cons token rest).trans inside) (Nat.lt_of_succ_lt_succ enough)
          · rw [List.dropWhile_cons_of_neg separates]
            apply run_loopFrom_of_inr
            simp only [skipSeparator, Machine.run_bind, checked, separates]
            rfl

theorem run_skipSeparators {rest : List Token} (inside : rest <:+ site.text)
    (registers : Registers) :
    skipSeparators.run site.input (site.facing rest registers) =
      .ok (.ok (), site.facing (rest.dropWhile Token.isSeparator) registers) :=
  run_loopFrom_skipSeparator inside registers (Site.length_lt_turns inside)

/-- Looking ahead does not move the cursor, wherever it is. -/
theorem run_loopFrom_lookAhead {rest : List Token} (inside : rest <:+ site.text)
    (registers : Registers) {turns : Nat} (enough : rest.length < turns) :
    (loopFrom lookAhead turns (site.index rest)).run site.input registers =
      .ok (.ok (site.index (rest.dropWhile Token.isSeparator)), registers) := by
  induction rest generalizing turns with
  | nil =>
      cases turns with
      | zero => contradiction
      | succ turns =>
          apply run_loopFrom_of_inr
          simp only [lookAhead, Machine.run_bind, run_tokenAt inside, Site.first, List.head?_nil,
            Option.getD_none, Token.isSeparator, Site.kind_close]
          rfl
  | cons token rest ih =>
      cases turns with
      | zero => contradiction
      | succ turns =>
          by_cases separates : token.isSeparator = true
          · have looked : (lookAhead (site.index (token :: rest))).run site.input registers =
                .ok (.ok (.inl (site.index rest)), registers) := by
              simp only [lookAhead, Machine.run_bind, run_tokenAt inside, Site.first,
                List.head?_cons, Option.getD_some, separates, if_true, Site.index_of_cons inside]
              rfl
            rw [run_loopFrom_of_inl turns looked, List.dropWhile_cons_of_pos separates]
            exact ih ((List.suffix_cons token rest).trans inside) (Nat.lt_of_succ_lt_succ enough)
          · rw [List.dropWhile_cons_of_neg separates]
            apply run_loopFrom_of_inr
            simp only [lookAhead, Machine.run_bind, run_tokenAt inside, Site.first,
              List.head?_cons, Option.getD_some, separates]
            rfl

/-- The line ends at what was skipped last or at what comes next. -/
theorem run_skipRound_of_ends {skipped : Token} {rest : List Token} (inside : rest <:+ site.text)
    (registers : Registers)
    (ends : (skipped.isSeparator || skipped.isEnd || rest.head?.any closesBlock) = true) :
    (skipRound skipped).run site.input (site.facing rest registers) =
      .ok (.ok (.inr ()), site.facing rest registers) := by
  simp only [skipRound, Machine.run_bind, run_check_brace inside, ends, if_true]
  rfl

theorem run_skipRound_of_goesOn (skipped : Token) {rest : List Token} (inside : rest <:+ site.text)
    (registers : Registers)
    (goesOn : (skipped.isSeparator || skipped.isEnd || rest.head?.any closesBlock) = false) :
    (skipRound skipped).run site.input (site.facing rest registers) =
      .ok (.ok (.inl (site.first rest)), site.facing rest.tail registers) := by
  have advanced : advance.run site.input (site.facing rest registers) =
      .ok (.ok (site.first rest), site.facing rest.tail registers) := by
    cases rest with
    | nil => exact run_advance_nil registers
    | cons next rest => exact run_advance inside registers
  simp only [skipRound, Machine.run_bind, run_check_brace inside, goesOn, Bool.false_eq_true,
    if_false, advanced]
  rfl

/-- The rest of the line of `token`, which has just been skipped, is skipped too. -/
theorem run_loopFrom_skipRound {token : Token} {rest : List Token}
    (inside : token :: rest <:+ site.text) (registers : Registers) {turns : Nat}
    (enough : rest.length + 1 < turns) :
    (loopFrom skipRound turns token).run site.input (site.facing rest registers) =
      .ok (.ok (), site.facing (behindLine (token :: rest)) registers) := by
  induction rest generalizing token turns with
  | nil =>
      obtain ⟨turns, rfl⟩ : ∃ fewer, turns = fewer + 2 := ⟨turns - 2, by simp at enough; omega⟩
      have notEnd : token.isEnd = false := site.noEnd token (inside.subset List.mem_cons_self)
      have left : behindLine [token] = [] := by simp [behindLine]
      rw [left]
      cases separates : token.isSeparator with
      | true =>
          exact run_loopFrom_of_inr _ (run_skipRound_of_ends List.nil_suffix registers
            (by simp [separates]))
      | false =>
          have nothing : [] <:+ site.text := List.nil_suffix
          have goesOn := run_skipRound_of_goesOn token nothing registers
            (by simp [separates, notEnd])
          rw [run_loopFrom_of_inl (turns + 1) goesOn]
          exact run_loopFrom_of_inr turns (run_skipRound_of_ends List.nil_suffix registers
            (by simp [Site.first, site.isEnd]))
  | cons next rest ih =>
      obtain ⟨turns, rfl⟩ : ∃ fewer, turns = fewer + 1 := ⟨turns - 1, by omega⟩
      have notEnd : token.isEnd = false := site.noEnd token (inside.subset List.mem_cons_self)
      have insideRest := (List.suffix_cons token (next :: rest)).trans inside
      cases ends : token.isSeparator || (next :: rest).head?.any closesBlock with
      | true =>
          rw [behindLine, if_pos ends]
          exact run_loopFrom_of_inr turns (run_skipRound_of_ends insideRest registers
            (by rw [notEnd, Bool.or_false, ends]))
      | false =>
          have goesOn := run_skipRound_of_goesOn token insideRest registers
            (by rw [notEnd, Bool.or_false, ends])
          rw [behindLine, if_neg (Bool.eq_false_iff.mp ends), run_loopFrom_of_inl turns goesOn]
          exact ih insideRest (Nat.lt_of_succ_lt_succ enough)

theorem run_skipLine {rest : List Token} (inside : rest <:+ site.text) (registers : Registers) :
    skipLine.run site.input (site.facing rest registers) =
      .ok (.ok (), site.facing (behindLine rest) registers) := by
  cases rest with
  | nil =>
      obtain ⟨turns, isTurns⟩ : ∃ turns, site.input.turns = turns + 1 :=
        Nat.exists_eq_succ_of_ne_zero (Nat.ne_zero_of_lt site.enoughTurns)
      rw [skipLine, Machine.run_bind, run_advance_nil]
      change (loopFrom skipRound site.input.turns site.close).run _ _ = _
      rw [isTurns]
      exact run_loopFrom_of_inr turns (run_skipRound_of_ends List.nil_suffix registers
        (by simp [site.isEnd]))
  | cons token rest =>
      rw [skipLine, Machine.run_bind, run_advance inside]
      exact run_loopFrom_skipRound inside registers (Site.length_lt_turns inside)

/-- Skipping the rest of a failed declaration leads to where the next one is tried. -/
theorem run_synchronize {rest : List Token} (inside : rest <:+ site.text)
    (registers : Registers) :
    synchronize.run site.input (site.facing rest registers) =
      .ok (.ok (), site.facing (resume (decide (0 < registers.depth)) rest) registers) := by
  have current : (site.facing rest registers).depth = registers.depth := rfl
  cases stays : decide (0 < registers.depth) && rest.head?.any closesBlock with
  | true =>
      simp only [synchronize, Machine.run_bind, run_check_brace inside, Cursor.registers, current,
        stays, if_true, run_skipSeparators inside, resume]
  | false =>
      have insideBehind := (behindLine_suffix rest).trans inside
      simp only [synchronize, Machine.run_bind, run_check_brace inside, Cursor.registers, current,
        stays, Bool.false_eq_true, if_false, run_skipLine inside,
        run_skipSeparators insideBehind, resume]

/-! ## Levels -/

/-- While a level is left, a rule is run one level deeper, and the level is given back. -/
theorem run_nested (machine : Machine α) (unread : List Token) {registers : Registers}
    (isOpen : registers.nesting < nestingLimit) :
    (nested machine).run site.input (site.facing unread registers) =
      match machine.run site.input (site.facing unread registers.enter) with
      | .ok (result, registers) => .ok (result, registers.leave)
      | .error halt => .error halt := by
  have notFull : ¬nestingLimit ≤ (site.facing unread registers).nesting := Nat.not_le.mpr isOpen
  simp only [nested, Machine.run_bind, Cursor.registers, notFull, if_false, modify, catching,
    ofResult, Site.enter_facing]
  cases machine.run site.input (site.facing unread registers.enter) <;> rfl

end Descriptor.Cursor
