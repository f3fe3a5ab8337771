import Descriptor.Proofs.Scanning.Cut

/-!
# What becomes of every character

The tokens of a text, with the characters that are skipped between them, are the text.  Each part
knows the line it begins on, and what is wrong with it can be told from its text: a skipped
character that is no blank, a number that is more than digits with a fraction or without, and a
string that the end of the text ends.
-/

namespace Descriptor

open Descriptor.Piece

/-- The line that the end of a text lies on, counted from one. -/
def lineAfter (text : List Char) : Nat :=
  1 + text.count '\n'

/-- A part of a text: a token if it has a kind, and a skipped character otherwise. -/
structure Part where
  text : List Char
  line : Nat
  kind? : Option Kind
  fault? : Option ScanFault

namespace Part

/-- The token that a part is. -/
def token? (part : Part) : Option Token :=
  part.kind?.map fun kind => ⟨kind, .ofList part.text, part.line⟩

/-- The error that a part has. -/
def error? (part : Part) : Option CompileError :=
  part.fault?.map fun fault => ⟨part.line, .scan fault, .ofList part.text⟩

/-- Whether a text is a number without a fault: digits, or digits with a dot and digits behind. -/
def IsPlainNumber (text : List Char) : Prop :=
  ∃ whole decimals, IsDigits whole ∧ IsFraction decimals ∧ text = whole ++ decimals

/-- What a part may be in front of the parts behind it. -/
inductive Legal : Part → List Part → Prop where
  | space {c : Char} {line : Nat} {behind : List Part}
      (space : c = ' ' ∨ c = '\t' ∨ c = '\r') : Legal ⟨[c], line, none, none⟩ behind
  | unknown {c : Char} {line : Nat} {behind : List Part} (noToken : startsToken c = false)
      (noSpace : isSpace c = false) :
      Legal ⟨[c], line, none, some (.unknownCharacter c)⟩ behind
  | plainNumber {text : List Char} {line : Nat} {value : Float} {behind : List Part}
      (plain : IsPlainNumber text) : Legal ⟨text, line, some (.number value), none⟩ behind
  | faultyNumber {text : List Char} {line : Nat} {value : Float} {fault : ScanFault}
      {behind : List Part} (notPlain : ¬IsPlainNumber text)
      (which : fault = .extraDecimalPoint ∨ fault = .letterAfterNumber) :
      Legal ⟨text, line, some (.number value), some fault⟩ behind
  | closedString {quote : Char} {inside : List Char} {line : Nat} {behind : List Part}
      (isQuote : quote = '"' ∨ quote = '\'') (noQuote : quote ∉ inside) :
      Legal ⟨quote :: inside ++ [quote], line, some (.string (.ofList inside)), none⟩ behind
  | unclosedString {quote : Char} {inside : List Char} {line : Nat}
      (isQuote : quote = '"' ∨ quote = '\'') (noQuote : quote ∉ inside) :
      Legal ⟨quote :: inside, line, some (.string (.ofList inside)), some .unterminatedString⟩ []
  | other {text : List Char} {line : Nat} {kind : Kind} {behind : List Part}
      (nonempty : text ≠ []) (noNumber : ∀ value, kind ≠ .number value)
      (noString : ∀ inside, kind ≠ .string inside) (noEnd : kind ≠ .endOfText) :
      Legal ⟨text, line, some kind, none⟩ behind

end Part

/-! ## Faulty numbers -/

namespace Piece

theorem IsDigits.count_dot {digits : List Char} (isDigits : IsDigits digits) :
    digits.count '.' = 0 := by
  rw [List.count_eq_zero]
  intro member
  have := isDigits.2 '.' member
  contradiction

theorem IsFraction.count_dot {decimals : List Char} (isFraction : IsFraction decimals) :
    decimals.count '.' = if decimals = [] then 0 else 1 := by
  rcases isFraction with rfl | ⟨digits, isDigits, rfl⟩
  · rfl
  · simp [isDigits.count_dot]

/-- A number has at most one dot. -/
theorem not_isPlainNumber_of_dotted {whole decimals more : List Char} (digits : IsDigits whole)
    (fraction : IsFraction decimals) (nonempty : decimals ≠ []) (dot : more.head? = some '.') :
    ¬Part.IsPlainNumber (whole ++ decimals ++ more) := by
  rintro ⟨whole', decimals', digits', fraction', same⟩
  have counts := congrArg (List.count '.') same
  have more_pos : 0 < more.count '.' :=
    List.count_pos_iff.mpr (List.mem_of_head? dot)
  simp only [List.count_append, digits.count_dot, digits'.count_dot, fraction.count_dot,
    fraction'.count_dot, nonempty, if_false] at counts
  split at counts <;> omega

/-- A number has no letters. -/
theorem not_isPlainNumber_of_lettered {text more : List Char}
    (letter : more.head?.any startsName = true) : ¬Part.IsPlainNumber (text ++ more) := by
  rintro ⟨whole, decimals, digits, fraction, same⟩
  rcases (Option.any_eq_true _ _).mp letter with ⟨c, head, starts⟩
  have member : c ∈ whole ++ decimals :=
    same ▸ List.mem_append_right text (List.mem_of_head? head)
  have noDigit : c.isDigit = false := by
    rw [← Bool.not_eq_true]
    intro digit
    rw [startsName_of_isDigit digit] at starts
    contradiction
  rcases List.mem_append.mp member with inWhole | inDecimals
  · rw [digits.2 c inWhole] at noDigit
    contradiction
  · rcases fraction with rfl | ⟨behindDot, behindDigits, rfl⟩
    · contradiction
    · rcases List.mem_cons.mp inDecimals with rfl | inDigits
      · contradiction
      · rw [behindDigits.2 c inDigits] at noDigit
        contradiction

/-! ## Pieces as parts -/

/-- The part that a piece is, beginning on `line`. -/
def toPart (piece : Piece) (line : Nat) : Part :=
  match piece.content with
  | .blank => ⟨piece.lexeme, line, none, none⟩
  | .unknown character => ⟨piece.lexeme, line, none, some (.unknownCharacter character)⟩
  | .token kind fault => ⟨piece.lexeme, line, some kind, fault⟩

@[simp]
theorem text_toPart (piece : Piece) (line : Nat) : (piece.toPart line).text = piece.lexeme := by
  unfold toPart
  split <;> rfl

@[simp]
theorem line_toPart (piece : Piece) (line : Nat) : (piece.toPart line).line = line := by
  unfold toPart
  split <;> rfl

@[simp]
theorem token?_toPart (piece : Piece) (line : Nat) :
    (piece.toPart line).token? = piece.token? line := by
  rcases piece with ⟨_ | _ | _, _⟩ <;> rfl

@[simp]
theorem error?_toPart (piece : Piece) (line : Nat) :
    (piece.toPart line).error? = piece.error? line := by
  rcases piece with ⟨_ | _ | _, _⟩ <;> rfl

/-- A first piece is a legal part.  Only behind an unterminated string there are no parts. -/
theorem Cut.legal {piece : Piece} {rest : List Char} (cut : Cut piece rest) (line : Nat)
    {behind : List Part} (atEnd : rest = [] → behind = []) :
    (piece.toPart line).Legal behind := by
  cases cut with
  | sign found =>
      exact .other (append_of_sign? found).2 (fun _ => nofun) (fun _ => nofun) nofun
  | separator => exact .other (List.cons_ne_nil _ _) (fun _ => nofun) (fun _ => nofun) nofun
  | blank space =>
      simp only [isSpace, Bool.or_eq_true, beq_iff_eq] at space
      exact .space (by tauto)
  | closed isQuote noQuote => exact .closedString isQuote noQuote
  | unclosed isQuote noQuote =>
      rw [atEnd rfl]
      exact .unclosedString isQuote noQuote
  | number digits fraction => exact .plainNumber ⟨_, _, digits, fraction, rfl⟩
  | dotted digits fraction nonempty dot =>
      exact .faultyNumber (not_isPlainNumber_of_dotted digits fraction nonempty dot) (.inl rfl)
  | lettered digits fraction letter =>
      exact .faultyNumber (not_isPlainNumber_of_lettered letter) (.inr rfl)
  | @name lexeme _ starts =>
      have nonempty : lexeme ≠ [] := by
        rintro rfl
        simp at starts
      have isWord : nameKind lexeme = .identifier ∨
          ∃ keyword, nameKind lexeme = .keyword keyword := by
        unfold nameKind
        split
        · exact .inr ⟨_, rfl⟩
        · exact .inl rfl
      rcases isWord with isWord | ⟨keyword, isWord⟩ <;>
        exact .other nonempty (by simp [isWord]) (by simp [isWord]) (by simp [isWord])
  | unknown noToken noSpace => exact .unknown noToken noSpace

end Piece

/-- Pieces as parts, the first one beginning on `line`. -/
def partsFrom (line : Nat) : List Piece → List Part
  | [] => []
  | piece :: pieces => piece.toPart line :: partsFrom (line + piece.newlines) pieces

theorem flatMap_text_partsFrom (line : Nat) (pieces : List Piece) :
    (partsFrom line pieces).flatMap Part.text = pieces.flatMap Piece.lexeme := by
  induction pieces generalizing line with
  | nil => rfl
  | cons piece pieces ih => simp [partsFrom, ih]

theorem tokensFrom_eq (line : Nat) (pieces : List Piece) :
    tokensFrom line pieces = (partsFrom line pieces).filterMap Part.token? ++
      [⟨.endOfText, "", line + (pieces.flatMap Piece.lexeme).count '\n'⟩] := by
  induction pieces generalizing line with
  | nil => rfl
  | cons piece pieces ih =>
      simp only [tokensFrom, partsFrom, ih, List.flatMap_cons, List.count_append, Piece.newlines,
        Nat.add_assoc, List.filterMap_cons, Piece.token?_toPart]
      cases piece.token? line <;> rfl

theorem errorsFrom_eq (line : Nat) (pieces : List Piece) :
    errorsFrom line pieces = (partsFrom line pieces).filterMap Part.error? := by
  induction pieces generalizing line with
  | nil => rfl
  | cons piece pieces ih =>
      simp only [errorsFrom, partsFrom, ih, List.filterMap_cons, Piece.error?_toPart]
      cases piece.error? line <;> rfl

/-- Every part of a text is legal and lies where its line says. -/
theorem legal_partsFrom (line : Nat) (text : List Char) {before behind : List Part} {part : Part}
    (split : partsFrom line (pieces text) = before ++ part :: behind) :
    part.line = line + (before.flatMap Part.text).count '\n' ∧ part.Legal behind := by
  induction before generalizing line text with
  | nil =>
      cases text with
      | nil => simp [pieces, partsFrom] at split
      | cons c rest =>
          rw [pieces, partsFrom, List.nil_append, List.cons.injEq] at split
          rcases split with ⟨rfl, rfl⟩
          refine ⟨by simp, (cut_first c rest).legal line ?_⟩
          intro atEnd
          rw [atEnd]
          simp [pieces, partsFrom]
  | cons earlier before ih =>
      cases text with
      | nil => simp [pieces, partsFrom] at split
      | cons c rest =>
          rw [pieces, partsFrom, List.cons_append, List.cons.injEq] at split
          rcases split with ⟨rfl, split⟩
          rcases ih _ _ split with ⟨isLine, legal⟩
          refine ⟨?_, legal⟩
          rw [isLine, List.flatMap_cons, List.count_append, Piece.text_toPart, Piece.newlines,
            Nat.add_assoc]

/-- The parts of a descriptor are all of it.  The tokens, closed by the end of the text, and the
errors are those of the parts, in the order of the text.  Each part lies on the line that the text
before it ends on, and its error can be told from its text. -/
theorem scan_covers (source : String) :
    ∃ parts : List Part,
      parts.flatMap Part.text = source.toList ∧
      (scan source).1 = parts.filterMap Part.token? ++
        [⟨.endOfText, "", lineAfter source.toList⟩] ∧
      (scan source).2 = parts.filterMap Part.error? ∧
      ∀ before part behind, parts = before ++ part :: behind →
        part.line = lineAfter (before.flatMap Part.text) ∧ part.Legal behind := by
  refine ⟨partsFrom 1 (pieces source.toList), ?_, ?_, errorsFrom_eq 1 _, ?_⟩
  · rw [flatMap_text_partsFrom, flatMap_lexeme_pieces]
  · rw [scan, tokensFrom_eq, flatMap_lexeme_pieces, lineAfter]
  · intro before part behind split
    exact legal_partsFrom 1 source.toList split

end Descriptor
