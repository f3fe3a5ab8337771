import Descriptor.Proofs.Scanning.Cut

/-!
# What stands right behind a number

A number takes the letters, digits and underscores behind it with it, so that no word and no other
number begins where it ends.  There is one exception: behind a second dot only dots and digits are
taken, and a letter or an underscore that stands next begins a word of its own.
`numbersStandAlone_iff` says that this is the only one.
-/

namespace Descriptor

open Piece

namespace Piece

/-! ## Which piece begins with a character -/

/-- Whether a piece is a number, with a fault or without. -/
def isNumber (piece : Piece) : Bool :=
  match piece.content with
  | .token (.number _) _ => true
  | _ => false

/-- Whether a piece is a number that a second dot makes faulty. -/
def hasSecondDot (piece : Piece) : Bool :=
  match piece.content with
  | .token (.number _) (some .extraDecimalPoint) => true
  | _ => false

/-- Whether a piece is an identifier or a keyword, conversions among them. -/
def spellsWord (piece : Piece) : Bool :=
  match piece.content with
  | .token .identifier _ => true
  | .token (.keyword _) _ => true
  | _ => false

theorem isNumber_of_hasSecondDot {piece : Piece} (dotted : piece.hasSecondDot = true) :
    piece.isNumber = true := by
  unfold hasSecondDot at dotted
  split at dotted
  · rename_i isContent
    rw [isNumber, isContent]
  · contradiction

theorem spellsWord_of_nameKind (lexeme : List Char) :
    (good (nameKind lexeme) lexeme).spellsWord = true := by
  unfold nameKind
  split <;> rfl

theorem isNumber_of_nameKind (lexeme : List Char) :
    (good (nameKind lexeme) lexeme).isNumber = false := by
  unfold nameKind
  split <;> rfl

/-- A character that signs begin with begins neither a number nor a word. -/
theorem not_starts_of_mem_signStarts {c : Char} (starts : c ∈ signStarts) :
    c.isDigit = false ∧ startsName c = false := by
  fin_cases starts <;> decide

variable {piece : Piece} {rest text : List Char} {c : Char}

theorem head_of_isDigits {digits : List Char} (isDigits : IsDigits digits)
    (begins : digits ++ rest = c :: text) : c.isDigit = true ∧ startsName c = false := by
  have digit := isDigits.head ⟨rest, begins⟩
  exact ⟨digit, startsName_of_isDigit digit⟩

/-- A piece is a number if it begins with a digit, and a word if it begins with a letter or an
underscore. -/
theorem Cut.starts_iff (cut : Cut piece rest) (begins : piece.lexeme ++ rest = c :: text) :
    piece.isNumber = c.isDigit ∧ piece.spellsWord = startsName c := by
  cases cut with
  | @sign _ lexeme _ found =>
      have starts : c ∈ signStarts := by
        cases lexeme with
        | nil => exact absurd rfl (append_of_sign? found).2
        | cons d lexeme =>
            obtain ⟨rfl, -⟩ := List.cons.inj begins
            exact mem_signStarts_of_sign? found _ List.mem_cons_self
      rcases not_starts_of_mem_signStarts starts with ⟨noDigit, noName⟩
      rw [noDigit, noName]
      exact ⟨rfl, rfl⟩
  | separator separates =>
      cases begins
      rcases separates with rfl | rfl <;> exact ⟨rfl, rfl⟩
  | blank space =>
      cases begins
      simp only [isSpace, Bool.or_eq_true, beq_iff_eq] at space
      rcases space with (rfl | rfl) | rfl <;> exact ⟨rfl, rfl⟩
  | closed isQuote =>
      cases begins
      rcases isQuote with rfl | rfl <;> exact ⟨rfl, rfl⟩
  | unclosed isQuote =>
      cases begins
      rcases isQuote with rfl | rfl <;> exact ⟨rfl, rfl⟩
  | number digits =>
      rcases head_of_isDigits digits ((List.append_assoc ..).symm.trans begins) with
        ⟨digit, noName⟩
      rw [digit, noName]
      exact ⟨rfl, rfl⟩
  | dotted digits | lettered digits =>
      simp only [List.append_assoc] at begins
      rcases head_of_isDigits digits begins with ⟨digit, noName⟩
      rw [digit, noName]
      exact ⟨rfl, rfl⟩
  | @name lexeme _ starts =>
      rw [spellsWord_of_nameKind, isNumber_of_nameKind]
      cases lexeme with
      | nil => simp at starts
      | cons d lexeme =>
          obtain ⟨rfl, -⟩ := List.cons.inj begins
          have starts : startsName d = true := by simpa using starts
          refine ⟨?_, starts.symm⟩
          by_contra digit
          rw [startsName_of_isDigit (by simpa using digit)] at starts
          contradiction
  | unknown noToken =>
      cases begins
      simp only [startsToken, Bool.or_eq_false_iff] at noToken
      rw [noToken.1.2, noToken.2]
      exact ⟨rfl, rfl⟩

/-! ## Which characters a number leaves behind it -/

/-- Behind a number there is neither a letter nor a digit, unless a second dot makes it faulty.
Then there is no digit. -/
theorem Cut.stops_of_isNumber (cut : Cut piece rest) (isNumber : piece.isNumber = true) :
    Stops Char.isDigit rest ∧ (piece.hasSecondDot = false → Stops startsName rest) := by
  have fewer : ∀ c, startsName c = true → isName c = true := fun _ starts =>
    isName_iff.mpr (.inl starts)
  cases cut with
  | number _ _ stops => exact ⟨stopsDigit_of_stopsName stops, fun _ => stops.mono fewer⟩
  | lettered _ _ _ _ stops => exact ⟨stopsDigit_of_stopsName stops, fun _ => stops.mono fewer⟩
  | dotted _ _ _ _ _ stops =>
      exact ⟨stops.mono fun _ digit => by simp [digit], fun noDot => nomatch noDot⟩
  | name =>
      rw [isNumber_of_nameKind] at isNumber
      exact absurd isNumber Bool.false_ne_true
  | _ => exact absurd isNumber Bool.false_ne_true

end Piece

/-! ## Pieces side by side -/

/-- A piece of a text is cut from the text of the pieces behind it. -/
theorem cut_of_pieces_eq {text : List Char} {before behind : List Piece} {piece : Piece}
    (split : pieces text = before ++ piece :: behind) :
    ∃ rest, Cut piece rest ∧ pieces rest = behind := by
  induction before generalizing text with
  | nil =>
      cases text with
      | nil => simp [pieces] at split
      | cons c rest =>
          rw [pieces, List.nil_append, List.cons.injEq] at split
          rcases split with ⟨rfl, rfl⟩
          exact ⟨_, cut_first c rest, rfl⟩
  | cons earlier before ih =>
      cases text with
      | nil => simp [pieces] at split
      | cons c rest =>
          rw [pieces, List.cons_append, List.cons.injEq] at split
          exact ih split.2

/-- What stands right behind a number is no number.  It is a word exactly if it begins with a
letter or an underscore, and then the number has a second dot. -/
theorem neighbour_of_number {text : List Char} {before behind : List Piece} {number next : Piece}
    (split : pieces text = before ++ number :: next :: behind)
    (isNumber : number.isNumber = true) :
    next.isNumber = false ∧ next.spellsWord = next.lexeme.head?.any startsName ∧
      (number.hasSecondDot = false → next.spellsWord = false) := by
  rcases cut_of_pieces_eq split with ⟨rest, cut, isRest⟩
  rcases cut.stops_of_isNumber isNumber with ⟨noDigit, noName⟩
  cases rest with
  | nil => simp [pieces] at isRest
  | cons c rest =>
      rw [pieces, List.cons.injEq] at isRest
      have nextCut := cut_first c rest
      have begins := append_first c rest
      rw [isRest.1] at nextCut begins
      rcases nextCut.starts_iff begins with ⟨isDigit, startsWord⟩
      have head : next.lexeme.head? = some c := by
        have nonempty := nextCut.lexeme_ne_nil
        cases lexeme : next.lexeme with
        | nil => exact absurd lexeme nonempty
        | cons d others =>
            rw [lexeme] at begins
            rw [List.head?_cons, (List.cons.inj begins).1]
      rw [isDigit, startsWord, head]
      exact ⟨stops_cons.mp noDigit, rfl, fun noDot => stops_cons.mp (noName noDot)⟩

/-- No number of a text has a word or another number right behind it. -/
def NumbersStandAlone (source : String) : Prop :=
  ∀ before number next behind, pieces source.toList = before ++ number :: next :: behind →
    number.isNumber = true → next.isNumber = false ∧ next.spellsWord = false

/-- The numbers of a text stand alone exactly if no letter and no underscore stands right behind
one that has a second dot. -/
theorem numbersStandAlone_iff (source : String) :
    NumbersStandAlone source ↔
      ∀ before number next behind, pieces source.toList = before ++ number :: next :: behind →
        number.hasSecondDot = true → next.lexeme.head?.any startsName = false := by
  constructor
  · intro alone before number next behind split dotted
    have isNumber := isNumber_of_hasSecondDot dotted
    rw [← (neighbour_of_number split isNumber).2.1]
    exact (alone before number next behind split isNumber).2
  · intro unlettered before number next behind split isNumber
    rcases neighbour_of_number split isNumber with ⟨noNumber, isWord, noWord⟩
    refine ⟨noNumber, ?_⟩
    cases dotted : number.hasSecondDot with
    | false => exact noWord dotted
    | true => rw [isWord, unlettered before number next behind split dotted]

/-- Letters behind a second dot are a word. -/
theorem not_numbersStandAlone : ¬NumbersStandAlone "1.2.3abc" := by
  have number : Cut ⟨.token (numberKind ['1'] ['.', '2']) (some .extraDecimalPoint),
      ['1'] ++ ['.', '2'] ++ ['.', '3']⟩ ['a', 'b', 'c'] :=
    .dotted (by simp [IsDigits]) (.inr ⟨['2'], by simp [IsDigits], rfl⟩) (by simp) rfl
      (by simp) rfl
  have word : Cut (good (nameKind ['a', 'b', 'c']) ['a', 'b', 'c']) [] :=
    .name rfl (by simp [isName]) rfl
  have isPieces := number.pieces_eq.trans (congrArg _ word.pieces_eq)
  intro alone
  have noWord := (alone [] _ _ _ isPieces rfl).2
  rw [spellsWord_of_nameKind] at noWord
  contradiction

end Descriptor
