import Descriptor.Grammar.Statement
import Descriptor.Proofs.Scanning.Cut

/-!
# Lexemes with spaces between them

A lexeme ends where the next character does not belong to it, and a space belongs to none but
inside quotes.  So each lexeme of a text, wherever it was cut from, is cut again when a space or
nothing stands behind it: `Cut.respaced`.  Only a string that is not closed has to stay the last
one, which it was.

The tokens of a text are therefore scanned again from their lexemes alone, `scan_respaced`.  What
is not scanned again are the characters that no token begins with.
-/

namespace Descriptor

open Piece

namespace Piece

/-! ## One lexeme -/

/-- Nothing, or a text that begins with a space. -/
def Spaced (text : List Char) : Prop :=
  ∀ c ∈ text.head?, c = ' '

theorem Spaced.stops {belongs : Char → Bool} {text : List Char} (spaced : Spaced text)
    (noSpace : belongs ' ' = false) : Stops belongs text := by
  cases text with
  | nil => rfl
  | cons c text =>
      obtain rfl : c = ' ' := spaced c rfl
      exact stops_cons.mpr noSpace

/-- A piece is cut as well with a space or nothing behind it, if nothing stays nothing. -/
theorem Cut.respaced {piece : Piece} {rest rest' : List Char} (cut : Cut piece rest)
    (spaced : Spaced rest') (atEnd : rest = [] → rest' = []) : Cut piece rest' := by
  cases cut with
  | sign found => exact .sign (sign?_of_stops found fun _ => spaced.stops rfl)
  | separator separates => exact .separator separates
  | blank space => exact .blank space
  | closed isQuote noQuote => exact .closed isQuote noQuote
  | unclosed isQuote noQuote =>
      rw [atEnd rfl]
      exact .unclosed isQuote noQuote
  | number digits fraction =>
      refine .number digits fraction (spaced.stops rfl) ?_
      unfold StopsNumber
      split
      · rw [fraction_of_stops (spaced.stops rfl)]
      · exact spaced.stops rfl
  | dotted digits fraction nonempty dot belongs =>
      exact .dotted digits fraction nonempty dot belongs (spaced.stops rfl)
  | lettered digits fraction letter belongs =>
      exact .lettered digits fraction letter belongs (spaced.stops rfl)
  | name starts belongs => exact .name starts belongs (spaced.stops rfl)
  | unknown noToken noSpace => exact .unknown noToken noSpace

/-! ## Pieces that are tokens -/

/-- Whether a piece is a token. -/
def isToken (piece : Piece) : Bool :=
  match piece.content with
  | .token _ _ => true
  | _ => false

end Piece

/-- Whether an error is about a character that no token begins with. -/
def CompileError.isUnknownCharacter (error : CompileError) : Bool :=
  match error.fault with
  | .scan (.unknownCharacter _) => true
  | _ => false

namespace Piece

theorem nameKind_ne_endOfText (lexeme : List Char) : nameKind lexeme ≠ .endOfText := by
  unfold nameKind
  split <;> nofun

/-- What is no token ends no line, and its error is about its character. -/
theorem Cut.of_not_isToken {piece : Piece} {rest : List Char} (cut : Cut piece rest)
    (noToken : piece.isToken = false) (line : Nat) :
    piece.newlines = 0 ∧ piece.token? line = none ∧
      ∀ error ∈ piece.error? line, error.isUnknownCharacter = true := by
  cases cut with
  | blank space =>
      have noNewline : ∀ c : Char, isSpace c = true → c ≠ '\n' := by
        rintro _ space rfl
        contradiction
      exact ⟨by simp [newlines, noNewline _ space], rfl, nofun⟩
  | unknown unstarted =>
      have noNewline : ∀ c : Char, startsToken c = false → c ≠ '\n' := by
        rintro _ unstarted rfl
        contradiction
      refine ⟨by simp [newlines, noNewline _ unstarted], rfl, ?_⟩
      intro error isError
      obtain rfl := Option.some.inj isError
      rfl
  | _ => contradiction

/-- A token does not end the text, and its error is not about an unknown character. -/
theorem Cut.of_isToken {piece : Piece} {rest : List Char} (cut : Cut piece rest)
    (isToken : piece.isToken = true) (line : Nat) :
    (∃ token, piece.token? line = some token ∧ token.isEnd = false ∧
      token.lexeme = .ofList piece.lexeme) ∧
      ∀ error ∈ piece.error? line, error.isUnknownCharacter = false := by
  cases cut with
  | blank | unknown => contradiction
  | name =>
      exact ⟨⟨_, rfl, beq_false_of_ne (nameKind_ne_endOfText _), rfl⟩, nofun⟩
  | unclosed | dotted | lettered =>
      refine ⟨⟨_, rfl, rfl, rfl⟩, ?_⟩
      intro error isError
      obtain rfl := Option.some.inj isError
      rfl
  | _ => exact ⟨⟨_, rfl, rfl, rfl⟩, nofun⟩

end Piece

/-- The lexemes of the tokens of a text. -/
def lexemes (text : List Char) : List (List Char) :=
  ((pieces text).filter Piece.isToken).map Piece.lexeme

/-! ## All lexemes -/

theorem spaced_flatMap (texts : List (List Char)) : Spaced (texts.flatMap (' ' :: ·)) := by
  cases texts with
  | nil => nofun
  | cons text texts =>
      rintro c ⟨⟩
      rfl

/-- A space in front of a text is skipped. -/
theorem scan_space (line : Nat) (text : List Char) :
    tokensFrom line (pieces (' ' :: text)) = tokensFrom line (pieces text) ∧
      errorsFrom line (pieces (' ' :: text)) = errorsFrom line (pieces text) := by
  have cut : Cut ⟨.blank, [' ']⟩ text := .blank rfl
  have first : pieces (' ' :: text) = ⟨.blank, [' ']⟩ :: pieces text := cut.pieces_eq
  rw [first]
  exact ⟨rfl, rfl⟩

/-- The lexemes of a text, each behind a space, have the tokens of the text, and its errors but
those about unknown characters. -/
theorem scan_behindSpaces (line : Nat) (text : List Char) :
    tokensFrom line (pieces ((lexemes text).flatMap (' ' :: ·))) =
        tokensFrom line (pieces text) ∧
      errorsFrom line (pieces ((lexemes text).flatMap (' ' :: ·))) =
        (errorsFrom line (pieces text)).filter (!·.isUnknownCharacter) := by
  -- The lexemes are those of the pieces, so the induction follows how the text is cut.
  induction text using pieces.induct generalizing line with
  | case1 => simp [lexemes, pieces, tokensFrom, errorsFrom]
  | case2 c rest ih =>
      have cut := cut_first c rest
      rw [lexemes, pieces, tokensFrom, errorsFrom, List.filter_append, ← (ih _).1, ← (ih _).2]
      generalize first c rest = parts at *
      rcases parts with ⟨piece, rest⟩
      cases isToken : piece.isToken with
      | false =>
          rcases cut.of_not_isToken isToken line with ⟨noLine, noToken, unknown⟩
          rw [List.filter_cons_of_neg (by simp [isToken]), noLine, noToken, ← lexemes]
          refine ⟨rfl, ?_⟩
          rw [List.filter_eq_nil_iff.mpr fun error isError => by
            simp [unknown error (Option.mem_toList.mp isError)]]
          rfl
      | true =>
          rcases cut.of_isToken isToken line with ⟨-, known⟩
          have again : Cut piece ((lexemes rest).flatMap (' ' :: ·)) := by
            refine cut.respaced (spaced_flatMap _) ?_
            rintro rfl
            simp [lexemes, pieces]
          rw [List.filter_cons_of_pos isToken, List.map_cons, ← lexemes, List.flatMap_cons,
            List.cons_append, (scan_space _ _).1, (scan_space _ _).2, again.pieces_eq,
            tokensFrom, errorsFrom]
          refine ⟨rfl, ?_⟩
          rw [List.filter_eq_self.mpr fun error isError => by
            simp [known error (Option.mem_toList.mp isError)]]

theorem tokensFrom_lexemes (line : Nat) (text : List Char) :
    ((tokensFrom line (pieces text)).filter (!·.isEnd)).map Token.lexeme =
      (lexemes text).map String.ofList := by
  induction text using pieces.induct generalizing line with
  | case1 => simp [lexemes, pieces, tokensFrom, Token.isEnd]
  | case2 c rest ih =>
      have cut := cut_first c rest
      rw [lexemes, pieces, tokensFrom, List.filter_append, List.map_append, ih]
      generalize first c rest = parts at *
      rcases parts with ⟨piece, rest⟩
      cases isToken : piece.isToken with
      | false =>
          rcases cut.of_not_isToken isToken line with ⟨-, noToken, -⟩
          rw [List.filter_cons_of_neg (by simp [isToken]), noToken]
          rfl
      | true =>
          rcases cut.of_isToken isToken line with ⟨⟨token, found, noEnd, lexeme⟩, -⟩
          rw [List.filter_cons_of_pos isToken, found]
          simp [noEnd, lexeme, lexemes]

/-- The lexemes of a descriptor with one space between each two are scanned to the tokens of the
descriptor, each on its line, and to its errors but those about unknown characters. -/
theorem scan_respaced (source : String) :
    scan (" ".intercalate (((scan source).1.filter (!·.isEnd)).map Token.lexeme)) =
      ((scan source).1, (scan source).2.filter (!·.isUnknownCharacter)) := by
  have spaces : (" ".intercalate ((lexemes source.toList).map String.ofList)).toList =
      [' '].intercalate (lexemes source.toList) := by
    rw [String.toList_intercalate, List.map_map]
    simp
  rcases scan_behindSpaces 1 source.toList with ⟨tokens, errors⟩
  rw [scan, scan, tokensFrom_lexemes, spaces, ← tokens, ← errors]
  cases lexemes source.toList with
  | nil => rfl
  | cons text texts =>
      rw [intercalate_space, List.flatMap_cons, List.cons_append, (scan_space _ _).1,
        (scan_space _ _).2]

end Descriptor
