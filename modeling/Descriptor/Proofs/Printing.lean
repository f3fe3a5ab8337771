import Descriptor.Compiled
import Descriptor.Proofs.Grammar.Reading.Statement
import Descriptor.Proofs.Number.Integer
import Descriptor.Proofs.Printing.Tree
import Descriptor.Proofs.Scanning.Neighbours

/-!
# What is printed tells the program

Two descriptors whose statements print alike have the same statements up to the lines of their
tokens, if their numbers are finite and no double quote stands in their strings:
`program_of_prints`.  Only what stands behind an infinity or a quote could be taken for something
else.

The trees that the parser makes are canonical, and spell tokens of the text.  Each of those is cut
from the text as what it is, so that it is spelled as its kind says, and a number has no sign.
-/

namespace Descriptor

open Piece Shown Binary64

/-! ## Numbers of a text -/

/-- Digits with a fraction or without are read as a decimal. -/
theorem Decimal.exists_read? {whole decimals : List Char} (digits : IsDigits whole)
    (fraction : IsFraction decimals) : ∃ d, Decimal.read? (whole ++ decimals) = some d := by
  rcases fraction with rfl | ⟨places, isDigits, rfl⟩
  · rw [List.append_nil]
    exact ⟨_, Decimal.read?_mantissa (.whole digits)⟩
  · have inBoth := List.forall_mem_append.mpr ⟨digits.2, isDigits.2⟩
    exact ⟨_, Decimal.read?_mantissa
      (.dotted ⟨List.append_ne_nil_of_left_ne_nil digits.1 _, inBoth⟩)⟩

/-- Digits with a fraction or without are a number that has no sign. -/
theorem exists_numberKind_eq {whole decimals : List Char} (digits : IsDigits whole)
    (fraction : IsFraction decimals) :
    ∃ pattern ≤ infinityPattern,
      numberKind whole decimals = .number (ofPattern false pattern) := by
  rcases Decimal.exists_read? digits fraction with ⟨d, isRead⟩
  have unsigned : Numeral.signed false (whole ++ decimals) = whole ++ decimals := by
    rw [Numeral.signed, if_neg Bool.false_ne_true]
  refine ⟨d.nearestPattern, d.nearestPattern_le_infinity, ?_⟩
  rw [numberKind, ← unsigned, Numeral.read_signed isRead, Decimal.toFloat]

/-- A number of a text has no sign. -/
theorem exists_pattern_of_cut {value : Float} {fault : Option ScanFault} {lexeme rest : List Char}
    (cut : Cut ⟨.token (.number value) fault, lexeme⟩ rest) :
    ∃ pattern ≤ infinityPattern, value = ofPattern false pattern := by
  generalize isPiece : (⟨.token (.number value) fault, lexeme⟩ : Piece) = piece at cut
  have ofKind : ∀ {whole decimals : List Char}, IsDigits whole → IsFraction decimals →
      Kind.number value = numberKind whole decimals →
        ∃ pattern ≤ infinityPattern, value = ofPattern false pattern := by
    intro whole decimals digits fraction isKind
    rcases exists_numberKind_eq digits fraction with ⟨pattern, bound, same⟩
    rw [same] at isKind
    exact ⟨pattern, bound, Kind.number.inj isKind⟩
  cases cut with
  | number digits fraction =>
      exact ofKind digits fraction (Content.token.inj (Piece.mk.inj isPiece).1).1
  | dotted digits fraction =>
      exact ofKind digits fraction (Content.token.inj (Piece.mk.inj isPiece).1).1
  | lettered digits fraction =>
      exact ofKind digits fraction (Content.token.inj (Piece.mk.inj isPiece).1).1
  | @name lexeme =>
      have isNumber := isNumber_of_nameKind lexeme
      rw [← isPiece] at isNumber
      contradiction
  | _ => cases isPiece

/-! ## Tokens of a text -/

/-- Whether what is printed for a token of this kind shows where it ends: a string without double
quotes, a finite number, or anything else. -/
def Kind.isPlain : Kind → Bool
  | .string text => !text.toList.contains '"'
  | .number value => value.isFinite
  | _ => true

/-- A token in front of the end of a text is cut from it. -/
theorem cut_of_mem_tokensFrom {line : Nat} {text : List Char} {token : Token}
    (member : token ∈ tokensFrom line (pieces text)) (noEnd : token.isEnd = false) :
    ∃ fault rest, Cut ⟨.token token.kind fault, token.lexeme.toList⟩ rest := by
  induction text using pieces.induct generalizing line with
  | case1 =>
      rw [pieces, tokensFrom, List.mem_singleton] at member
      subst member
      contradiction
  | case2 c rest ih =>
      rw [pieces, tokensFrom, List.mem_append] at member
      rcases member with isFirst | isLater
      · have cut := cut_first c rest
        generalize first c rest = parts at cut isFirst
        rcases parts with ⟨⟨_ | _ | ⟨kind, fault⟩, lexeme⟩, behind⟩
        · cases isFirst
        · cases isFirst
        · rw [Piece.token?, Option.toList_some, List.mem_singleton] at isFirst
          subst isFirst
          exact ⟨fault, behind, by rwa [String.toList_ofList]⟩
      · exact ih isLater

/-- A token that is read from a text is cut from it. -/
theorem cut_of_mem_readTokens {source : String} {token : Token}
    (member : token ∈ readTokens (scan source).1) :
    ∃ fault rest, Cut ⟨.token token.kind fault, token.lexeme.toList⟩ rest := by
  have noEnd : (!token.isEnd) = true :=
    List.mem_takeWhile_imp (p := fun token : Token => !token.isEnd) member
  rw [Bool.not_eq_true'] at noEnd
  exact cut_of_mem_tokensFrom ((List.takeWhile_prefix _).subset member) noEnd

theorem Token.isSpelled_of_cut {token : Token} {fault : Option ScanFault} {rest : List Char}
    (cut : Cut ⟨.token token.kind fault, token.lexeme.toList⟩ rest) : token.IsSpelled :=
  ⟨fault, cut.respaced nofun fun _ => rfl⟩

theorem valid_of_isFinite {value : Float} {pattern : Nat} (bound : pattern ≤ infinityPattern)
    (isNumber : value = ofPattern false pattern) (finite : value.isFinite = true) :
    (Word.number value).Valid := by
  have noInfinity : pattern ≠ infinityPattern := by
    rintro rfl
    have infinite : (ofPattern false infinityPattern).isFinite = false := by decide +kernel
    rw [isNumber, infinite] at finite
    contradiction
  rw [isNumber]
  exact ⟨pattern, form_ofPattern false (Nat.lt_of_le_of_ne bound noInfinity)⟩

/-- A symbol for a plain token that is cut from a text is sound. -/
theorem Symbol.sound_of_fits {symbol : Symbol} {token : Token} (fits : symbol.Fits token)
    (plain : token.kind.isPlain = true) {fault : Option ScanFault} {rest : List Char}
    (cut : Cut ⟨.token token.kind fault, token.lexeme.toList⟩ rest) : symbol.Sound := by
  cases symbol with
  | exact exactly =>
      obtain rfl : token = exactly := fits
      exact Token.isSpelled_of_cut cut
  | sort kind =>
      obtain rfl : token.kind = kind := fits
      generalize token.kind = kind at plain cut
      cases kind with
      | number value =>
          rcases exists_pattern_of_cut cut with ⟨pattern, bound, isNumber⟩
          exact valid_of_isFinite bound isNumber plain
      | string text =>
          have noQuote : '"' ∉ text.toList := by simpa [Kind.isPlain] using plain
          exact noQuote
      | _ => trivial
  | closing sign => trivial

/-- Each symbol stands for one of the tokens that spell it. -/
theorem Spells.exists_fits {Skip : Token → Prop} {symbols : List Symbol} {tokens : List Token}
    (spells : Spells Skip symbols tokens) {symbol : Symbol} (member : symbol ∈ symbols) :
    ∃ token ∈ tokens, symbol.Fits token := by
  have sublist := spells.sublistForall₂
  clear spells
  induction sublist with
  | nil => cases member
  | cons fits _ ih =>
      rcases List.mem_cons.mp member with rfl | member
      · exact ⟨_, List.mem_cons_self, fits⟩
      · exact (ih member).imp fun _ => And.imp_left (List.mem_cons_of_mem _)
  | cons_right _ ih => exact (ih member).imp fun _ => And.imp_left (List.mem_cons_of_mem _)

/-! ## Programs of a text -/

section Programs

variable {source source' : String}

/-- The symbols of the statements of a text are sound. -/
theorem sound_of_mem_spellBody (plain : ∀ token ∈ (scan source).1, token.kind.isPlain = true) :
    ∀ symbol ∈ spellBody [] (parseSource source).1, symbol.Sound := by
  intro symbol member
  rcases parse_read (scan source).1 with ⟨errors, -, read⟩
  -- Which tokens are left out does not matter, so any gap will do.
  have written := read.written (fun _ => True) ⟨fun _ _ => trivial, fun _ _ => trivial⟩
  have spells : Spells (fun _ => True) (spellBody [] (parseSource source).1)
      (readTokens (scan source).1) :=
    spells_of_bodyWritten (fun _ _ => trivial) (fun _ _ _ _ => trivial) _ _ _ written
  rcases spells.exists_fits member with ⟨token, isRead, fits⟩
  rcases cut_of_mem_readTokens isRead with ⟨fault, rest, cut⟩
  exact Symbol.sound_of_fits fits (plain token ((List.takeWhile_prefix _).subset isRead)) cut

/-- Canonical statements with sound symbols that print alike are the same but for lines. -/
theorem mapBody_eq_of_prints : ∀ {body body' : List Stmt}, CanonicalBody body →
    CanonicalBody body' → (∀ symbol ∈ spellBody [] body, symbol.Sound) →
      (∀ symbol ∈ spellBody [] body', symbol.Sound) →
        body.map Stmt.print = body'.map Stmt.print →
          mapBody Token.unplaced body = mapBody Token.unplaced body'
  | [], [], _, _, _, _, _ => rfl
  | [], _ :: _, _, _, _, _, same => absurd same.symm (List.cons_ne_nil _ _)
  | _ :: _, [], _, _, _, _, same => absurd same (List.cons_ne_nil _ _)
  | statement :: body, statement' :: body', ⟨canonical, canonicalBody⟩,
      ⟨canonical', canonicalBody'⟩, sound, sound', same => by
      rw [spellBody, List.forall_mem_append] at sound sound'
      rcases List.cons.inj same with ⟨print, prints⟩
      rw [mapBody, mapBody,
        Stmt.eq_of_print_eq (statement.legible canonical sound.1)
          (statement'.legible canonical' sound'.1) print,
        mapBody_eq_of_prints canonicalBody canonicalBody' sound.2 sound'.2 prints]

/-- What is printed tells the program.  If there are no double quotes in the strings of two texts
and all their numbers are finite, and the statements that are read from them print alike, then the
statements are the same but for the lines of their tokens. -/
theorem program_of_prints (plain : ∀ token ∈ (scan source).1, token.kind.isPlain = true)
    (plain' : ∀ token ∈ (scan source').1, token.kind.isPlain = true)
    (same : (parseSource source).1.map Stmt.print = (parseSource source').1.map Stmt.print) :
    mapBody Token.unplaced (parseSource source).1 =
      mapBody Token.unplaced (parseSource source').1 := by
  rcases parse_read (scan source).1 with ⟨_, -, read⟩
  rcases parse_read (scan source').1 with ⟨_, -, read'⟩
  exact mapBody_eq_of_prints read.canonical read'.canonical (sound_of_mem_spellBody plain)
    (sound_of_mem_spellBody plain') same

/-- Quotes of either form, digits and blanks that do not matter and last commas are not printed.
Blanks and parentheses in a string are. -/
theorem program_of_prints_respaced :
    let source := "let a = -1.5 - x\na[0].b = %\x7bk: 'it (s)'\x7d\ntoString [a]"
    let source' := "let a = - 1.50 - x;\n\na[0.0].b=%\x7b k: \"it (s)\", \x7d;toString[a,]"
    let prints := ["(let a (- (- 1.5) x))", "(set (get a[0]).b (object k:\"it (s)\"))",
      "(toString (array a))"]
    (∀ token ∈ (scan source).1, token.kind.isPlain = true) ∧
      (∀ token ∈ (scan source').1, token.kind.isPlain = true) ∧
      (parseSource source).1.map Stmt.print = prints ∧
      (parseSource source').1.map Stmt.print = prints ∧
      mapBody Token.unplaced (parseSource source).1 =
        mapBody Token.unplaced (parseSource source').1 := by
  intro source source' prints
  have plain : ∀ token ∈ (scan source).1, token.kind.isPlain = true := by decide +kernel
  have plain' : ∀ token ∈ (scan source').1, token.kind.isPlain = true := by decide +kernel
  have printed : (parseSource source).1.map Stmt.print = prints := by decide +kernel
  have printed' : (parseSource source').1.map Stmt.print = prints := by decide +kernel
  exact ⟨plain, plain', printed, printed',
    program_of_prints plain plain' (printed.trans printed'.symm)⟩

end Programs

end Descriptor
