import Descriptor.Proofs.Normalization.Pass
import Descriptor.Proofs.Normalization.Spelling
import Descriptor.Proofs.Scanning.Cut

/-!
# Strings and separators through a pass

A pass and the scanner find the strings of a text independently of each other.  They agree since
strings and separators, the marks of a text, are decided by four characters alone: the two quotes,
the semicolon and the newline.  All other characters are inert.  An inert character in front of a
text does not change its marks, `marks_cons_of_isInert`, and a phrase and its operator are inert.
So a pass keeps the marks, with their texts and their lines.
-/

namespace Descriptor

open Descriptor.Piece Descriptor.Text

/-- Whether a token is a separator, a string or the end of the text. -/
def Kind.isMark : Kind → Bool
  | .separator | .string _ | .endOfText => true
  | _ => false

/-- Whether a token is a separator, a string or the end of the text. -/
def Token.isMark (token : Token) : Bool :=
  token.kind.isMark

/-- Whether an error reports a string without its closing quote. -/
def CompileError.isUnterminatedString (error : CompileError) : Bool :=
  error.fault == .scan .unterminatedString

/-- Whether a piece is a separator or a string. -/
def Piece.isMark (piece : Piece) : Bool :=
  match piece.content with
  | .token kind _ => kind.isMark
  | _ => false

/-- The separators and the strings of a text. -/
def marks (text : List Char) : List Piece :=
  (pieces text).filter Piece.isMark

/-- Whether a character can stand in a string only as a part of its text. -/
def isInert (c : Char) : Bool :=
  !isQuote c && c != ';' && c != '\n'

/-! ## Marks and inert characters -/

theorem isInert_iff {c : Char} :
    isInert c = true ↔ isQuote c = false ∧ c ≠ ';' ∧ c ≠ '\n' := by
  simp [isInert, and_assoc]

theorem isInert_of_isAlpha {c : Char} (letter : c.isAlpha = true) : isInert c = true := by
  refine isInert_iff.mpr ⟨isQuote_of_isWord (isWord_of_isAlpha letter), ?_, ?_⟩ <;>
    rintro rfl <;> contradiction

theorem isInert_of_isDigit {c : Char} (digit : c.isDigit = true) : isInert c = true := by
  refine isInert_iff.mpr ⟨isQuote_of_isWord (isWord_of_isDigit digit), ?_, ?_⟩ <;>
    rintro rfl <;> contradiction

theorem isInert_of_isName {c : Char} (belongs : isName c = true) : isInert c = true := by
  rcases isName_iff.mp belongs with starts | digit
  · simp only [startsName, Bool.or_eq_true, beq_iff_eq] at starts
    rcases starts with letter | rfl
    · exact isInert_of_isAlpha letter
    · rfl
  · exact isInert_of_isDigit digit

theorem isInert_of_mem_signStarts {c : Char} (starts : c ∈ signStarts) : isInert c = true := by
  have inert : signStarts.all isInert = true := by decide
  exact List.all_eq_true.mp inert c starts

theorem Piece.IsFraction.inert {decimals : List Char} (fraction : IsFraction decimals) :
    ∀ c ∈ decimals, isInert c = true := by
  rcases fraction with rfl | ⟨digits, isDigits, rfl⟩
  · simp
  · rw [List.forall_mem_cons]
    exact ⟨rfl, fun c member => isInert_of_isDigit (isDigits.2 c member)⟩

theorem Piece.IsDigits.inert {whole decimals : List Char} (digits : IsDigits whole)
    (fraction : IsFraction decimals) : ∀ c ∈ whole ++ decimals, isInert c = true := by
  intro c member
  rcases List.mem_append.mp member with inWhole | inDecimals
  · exact isInert_of_isDigit (digits.2 c inWhole)
  · exact fraction.inert c inDecimals

/-- A first piece is a mark and begins with no inert character, or it is none and made of inert
characters. -/
theorem Piece.Cut.marked_or_inert {piece : Piece} {rest : List Char} (cut : Cut piece rest) :
    (piece.isMark = true ∧ piece.lexeme.head?.any isInert = false) ∨
      (piece.isMark = false ∧ ∀ c ∈ piece.lexeme, isInert c = true) := by
  cases cut with
  | separator separates => rcases separates with rfl | rfl <;> exact .inl ⟨rfl, rfl⟩
  | closed isQuote | unclosed isQuote => rcases isQuote with rfl | rfl <;> exact .inl ⟨rfl, rfl⟩
  | sign found =>
      exact .inr ⟨rfl, fun c member =>
        isInert_of_mem_signStarts (mem_signStarts_of_sign? found c member)⟩
  | blank space =>
      simp only [isSpace, Bool.or_eq_true, beq_iff_eq] at space
      refine .inr ⟨rfl, ?_⟩
      simp only [List.mem_singleton, forall_eq]
      rcases space with (rfl | rfl) | rfl <;> rfl
  | number digits fraction => exact .inr ⟨rfl, digits.inert fraction⟩
  | dotted digits fraction _ _ belongs =>
      refine .inr ⟨rfl, fun c member => ?_⟩
      rcases List.mem_append.mp member with inNumber | inMore
      · exact digits.inert fraction c inNumber
      · have dotOrDigit := belongs c inMore
        simp only [Bool.or_eq_true, beq_iff_eq] at dotOrDigit
        rcases dotOrDigit with rfl | digit
        · rfl
        · exact isInert_of_isDigit digit
  | lettered digits fraction _ belongs =>
      refine .inr ⟨rfl, fun c member => ?_⟩
      rcases List.mem_append.mp member with inNumber | inMore
      · exact digits.inert fraction c inNumber
      · exact isInert_of_isName (belongs c inMore)
  | @name lexeme _ _ belongs =>
      refine .inr ⟨?_, fun c member => isInert_of_isName (belongs c member)⟩
      simp only [isMark, good, nameKind]
      split <;> rfl
  | unknown noToken noSpace =>
      refine .inr ⟨rfl, ?_⟩
      simp only [List.mem_singleton, forall_eq]
      simp only [startsToken, Bool.or_eq_false_iff, beq_eq_false_iff_ne] at noToken
      simp [isInert, isQuote, noToken]

/-- An inert character in front of a text does not change its marks. -/
theorem marks_cons_of_isInert {c : Char} (inert : isInert c = true) (rest : List Char) :
    marks (c :: rest) = marks rest := by
  -- The first piece may take more of the text, which is inert as well and shorter.
  induction length : rest.length using Nat.strong_induction_on generalizing c rest with
  | _ n ih =>
      subst length
      have cut := cut_first c rest
      have whole := append_first c rest
      rw [marks, pieces]
      generalize first c rest = parts at cut whole
      rcases parts with ⟨piece, behind⟩
      cases lexeme : piece.lexeme with
      | nil => exact absurd lexeme cut.lexeme_ne_nil
      | cons d more =>
          rw [lexeme, List.cons_append, List.cons.injEq] at whole
          rcases whole with ⟨rfl, rfl⟩
          rcases cut.marked_or_inert with ⟨-, noInert⟩ | ⟨noMark, allInert⟩
          · rw [lexeme, List.head?_cons, Option.any_some, inert] at noInert
            contradiction
          · rw [lexeme, List.forall_mem_cons] at allInert
            rw [List.filter_cons_of_neg (by simp [noMark])]
            replace allInert := allInert.2
            clear lexeme
            induction more with
            | nil => rfl
            | cons e more ihMore =>
                rw [List.forall_mem_cons] at allInert
                rw [List.cons_append, ih _ (by simp) allInert.1 _ rfl]
                exact ihMore (fun n shorter => ih n (by simp at shorter ⊢; omega)) allInert.2

theorem marks_append_of_isInert {used : List Char} (inert : ∀ c ∈ used, isInert c = true)
    (rest : List Char) : marks (used ++ rest) = marks rest := by
  induction used with
  | nil => rfl
  | cons c used ih =>
      rw [List.forall_mem_cons] at inert
      rw [List.cons_append, marks_cons_of_isInert inert.1, ih inert.2]

/-- A separator in front of a text is a mark of its own. -/
theorem marks_separator {c : Char} (separates : c = ';' ∨ c = '\n') (rest : List Char) :
    marks (c :: rest) = good .separator [c] :: marks rest := by
  have cut : Cut (good .separator [c]) rest := .separator separates
  exact congrArg (List.filter Piece.isMark) cut.pieces_eq

/-- A string in front of a text is a mark of its own. -/
theorem marks_string {quote : Char} (isQuote : isQuote quote = true) {inside : List Char}
    (noQuote : quote ∉ inside) (rest : List Char) :
    marks (quote :: inside ++ quote :: rest) =
      good (.string (.ofList inside)) (quote :: inside ++ [quote]) :: marks rest := by
  have cut : Cut (good (.string (.ofList inside)) (quote :: inside ++ [quote])) rest :=
    .closed (isQuote_iff.mp isQuote) noQuote
  have cuts := cut.pieces_eq
  rw [good, List.append_assoc, List.singleton_append] at cuts
  exact congrArg (List.filter Piece.isMark) cuts

/-! ## Marks through a pass -/

/-- A pass keeps the marks of a text. -/
theorem marks_normalizeAfter (previous : Option Char) (text : List Char) :
    marks (normalizeAfter previous text) = marks text := by
  induction previous, text using normalizeAfter.induct with
  | case1 previous => rw [normalizeAfter_nil]
  | case2 previous c rest quote unclosed => rw [normalizeAfter_open quote unclosed]
  | case3 previous c rest quote close after closed ih =>
      have isClose : close = c := by
        have ends := List.head?_dropWhile_not (· != c) rest
        simpa [closed] using ends
      have noQuote : c ∉ rest.takeWhile (· != c) := fun member => by
        simpa using List.mem_takeWhile_imp (p := (· != c)) member
      have whole := List.takeWhile_append_dropWhile (p := (· != c)) (l := rest)
      rw [closed, isClose] at whole
      rw [normalizeAfter_quoted quote closed, marks_string quote noQuote, ih]
      conv_rhs => rw [← whole, ← List.cons_append, marks_string quote noQuote]
  | case4 previous c rest plain unfound ih =>
      rw [Bool.not_eq_true] at plain
      rw [normalizeAfter_copied plain unfound]
      cases inert : isInert c with
      | true => rw [marks_cons_of_isInert inert, marks_cons_of_isInert inert, ih]
      | false =>
          have separates : c = ';' ∨ c = '\n' := by
            by_contra neither
            rw [not_or] at neither
            rw [isInert_iff.mpr ⟨plain, neither⟩] at inert
            contradiction
          rw [marks_separator separates, marks_separator separates, ih]
  | case5 previous c rest plain phrase after found operator ih =>
      rw [Bool.not_eq_true] at plain
      have known := (Phrase.mem_of_find?_eq_some found).1
      rcases Phrase.exists_spells_of_find? found with ⟨spelled, spells, whole⟩
      have inertSpelled : ∀ c ∈ spelled, isInert c = true := by
        intro c member
        rcases spells.isAlpha_or_isGap_or_isSign known c member with letter | gap | sign
        · exact isInert_of_isAlpha letter
        · rcases Phrase.isGap_iff.mp gap with rfl | rfl <;> rfl
        · rcases isSign_iff.mp sign with rfl | rfl <;> rfl
      have inertSpace : ∀ apart : Bool,
          ∀ c ∈ (if apart = true then [' '] else []), isInert c = true := by
        intro apart
        cases apart <;> simp [isInert, isQuote]
      have inertOperators : ∀ phrase ∈ Phrase.all, phrase.operator.toList.all isInert = true := by
        decide
      have inertOperator := List.all_eq_true.mp (inertOperators phrase known)
      rw [normalizeAfter_replaced plain found, whole, List.append_assoc, List.append_assoc,
        marks_append_of_isInert (inertSpace _), marks_append_of_isInert inertOperator,
        marks_append_of_isInert (inertSpace _), marks_append_of_isInert inertSpelled, ih]

/-! ## From pieces to tokens -/

/-- A piece that is no mark ends no line and is neither a marked token nor an unterminated
string. -/
theorem Piece.Cut.of_not_isMark {piece : Piece} {rest : List Char} (cut : Cut piece rest)
    (noMark : piece.isMark = false) (line : Nat) :
    piece.newlines = 0 ∧ (piece.token? line).toList.filter Token.isMark = [] ∧
      (piece.error? line).toList.filter CompileError.isUnterminatedString = [] := by
  refine ⟨?_, ?_, ?_⟩
  · rcases cut.marked_or_inert with ⟨isMark, -⟩ | ⟨-, inert⟩
    · rw [isMark] at noMark
      contradiction
    · refine List.count_eq_zero.mpr fun member => ?_
      have := inert _ member
      contradiction
  · rcases piece with ⟨_ | _ | ⟨kind, fault⟩, lexeme⟩ <;>
      simp_all [Piece.token?, Piece.isMark, Token.isMark]
  · cases cut <;> simp_all [Piece.error?, Piece.isMark, good, Kind.isMark,
      CompileError.isUnterminatedString]

/-- A piece that is a mark is a marked token, and its error is that of an unterminated string. -/
theorem Piece.Cut.of_isMark {piece : Piece} {rest : List Char} (cut : Cut piece rest)
    (isMark : piece.isMark = true) (line : Nat) :
    (piece.token? line).toList.filter Token.isMark = (piece.token? line).toList ∧
      (piece.error? line).toList.filter CompileError.isUnterminatedString =
        (piece.error? line).toList := by
  constructor
  · rcases piece with ⟨_ | _ | ⟨kind, fault⟩, lexeme⟩ <;>
      simp_all [Piece.token?, Piece.isMark, Token.isMark]
  · cases cut <;> simp_all [Piece.error?, Piece.isMark, good, Kind.isMark, numberKind,
      CompileError.isUnterminatedString]

/-- The marked tokens of a text and its unterminated strings depend on its marks only. -/
theorem filter_tokensFrom_errorsFrom (line : Nat) (text : List Char) :
    (tokensFrom line (pieces text)).filter Token.isMark = tokensFrom line (marks text) ∧
      (errorsFrom line (pieces text)).filter CompileError.isUnterminatedString =
        errorsFrom line (marks text) := by
  induction length : text.length using Nat.strong_induction_on generalizing line text with
  | _ n ih =>
      subst length
      cases text with
      | nil => simp [marks, pieces, tokensFrom, errorsFrom, Token.isMark, Kind.isMark]
      | cons c rest =>
          have cut := cut_first c rest
          have ih := fun line => ih _ (length_first_lt c rest) line _ rfl
          rw [marks, pieces, tokensFrom, errorsFrom, List.filter_append, List.filter_append,
            (ih _).1, (ih _).2]
          cases isMark : (first c rest).1.isMark with
          | true =>
              rcases cut.of_isMark isMark line with ⟨tokens, errors⟩
              rw [List.filter_cons_of_pos isMark, tokensFrom, errorsFrom, tokens, errors]
              exact ⟨rfl, rfl⟩
          | false =>
              rcases cut.of_not_isMark isMark line with ⟨noLine, tokens, errors⟩
              rw [List.filter_cons_of_neg (by simp [isMark]), tokens, errors, noLine]
              exact ⟨rfl, rfl⟩

/-- Replacing the phrases of a descriptor keeps its strings and separators, in their order and on
their lines, the line on which it ends, and the error of a string that is not closed. -/
theorem scan_normalize_marks (source : String) :
    (scan (normalize source)).1.filter Token.isMark = (scan source).1.filter Token.isMark ∧
      (scan (normalize source)).2.filter CompileError.isUnterminatedString =
        (scan source).2.filter CompileError.isUnterminatedString := by
  rcases filter_tokensFrom_errorsFrom 1 source.toList with ⟨tokens, errors⟩
  rcases filter_tokensFrom_errorsFrom 1 (normalize source).toList with ⟨tokens', errors'⟩
  rw [show marks (normalize source).toList = marks source.toList by
    rw [normalize, String.toList_ofList, marks_normalizeAfter]] at tokens' errors'
  exact ⟨tokens'.trans tokens.symm, errors'.trans errors.symm⟩

end Descriptor
