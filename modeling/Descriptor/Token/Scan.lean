import Descriptor.Fault
import Descriptor.Number.Numeral

/-!
# Cutting text into tokens

A descriptor is first cut into pieces, each as long as possible: tokens, blanks, and characters no
token begins with.  Nothing of the text is lost, so the pieces joined are the text again.  A
malformed number or an unterminated string is one piece, a token with a fault.

`scan` numbers the lines of the pieces and keeps the tokens and the faults.
-/

namespace Descriptor

/-- What a piece of text is. -/
inductive Content where
  /-- A space, a tab or a carriage return. -/
  | blank
  /-- A character no token begins with. -/
  | unknown (character : Char)
  /-- A token, and what is wrong with it. -/
  | token (kind : Kind) (fault : Option ScanFault)
  deriving DecidableEq

/-- A piece of a descriptor with its text. -/
structure Piece where
  content : Content
  lexeme : List Char
  deriving DecidableEq

namespace Piece

/-! ## Classes of characters -/

/-- The blanks between tokens. -/
def isSpace (c : Char) : Bool :=
  c == ' ' || c == '\r' || c == '\t'

/-- What an identifier or keyword begins with: an ASCII letter or an underscore. -/
def startsName (c : Char) : Bool :=
  c.isAlpha || c == '_'

/-- What an identifier or keyword goes on with. -/
def isName (c : Char) : Bool :=
  c.isAlphanum || c == '_'

/-! ## The first piece of a text -/

/-- A token without a fault. -/
def good (kind : Kind) (lexeme : List Char) : Piece :=
  ⟨.token kind none, lexeme⟩

/-- A sign at the start of a text, as long as possible, with its text and the text behind it. -/
def sign? : List Char → Option (Sign × List Char × List Char)
  | ':' :: rest => some (.colon, [':'], rest)
  | ',' :: rest => some (.comma, [','], rest)
  | '.' :: rest => some (.dot, ['.'], rest)
  | '{' :: rest => some (.leftBrace, ['{'], rest)
  | '}' :: rest => some (.rightBrace, ['}'], rest)
  | '[' :: rest => some (.leftBracket, ['['], rest)
  | ']' :: rest => some (.rightBracket, [']'], rest)
  | '(' :: rest => some (.leftParen, ['('], rest)
  | ')' :: rest => some (.rightParen, [')'], rest)
  | '-' :: rest => some (.minus, ['-'], rest)
  | '%' :: rest => some (.percent, ['%'], rest)
  | '+' :: rest => some (.plus, ['+'], rest)
  | '/' :: rest => some (.slash, ['/'], rest)
  | '*' :: rest => some (.star, ['*'], rest)
  | '!' :: '=' :: '=' :: rest => some (.bangEqualEqual, ['!', '=', '='], rest)
  | '!' :: '=' :: rest => some (.bangEqual, ['!', '='], rest)
  | '!' :: rest => some (.bang, ['!'], rest)
  | '=' :: '=' :: '=' :: rest => some (.equalEqualEqual, ['=', '=', '='], rest)
  | '=' :: '=' :: rest => some (.equalEqual, ['=', '='], rest)
  | '=' :: rest => some (.equal, ['='], rest)
  | '<' :: '=' :: rest => some (.lessEqual, ['<', '='], rest)
  | '<' :: rest => some (.less, ['<'], rest)
  | '>' :: '=' :: rest => some (.greaterEqual, ['>', '='], rest)
  | '>' :: rest => some (.greater, ['>'], rest)
  | _ => none

/-- A string, whose opening quote stands before `text`.  It ends at the next quote of the same
form, or else at the end of the text. -/
def string (quote : Char) (text : List Char) : Piece × List Char :=
  let inside := text.takeWhile (· != quote)
  let kind := Kind.string (.ofList inside)
  match text.dropWhile (· != quote) with
  | [] => (⟨.token kind (some .unterminatedString), quote :: inside⟩, [])
  | _ :: rest => (good kind (quote :: inside ++ [quote]), rest)

/-- A dot with digits behind it, and the text after them. -/
def fraction (text : List Char) : List Char × List Char :=
  match text with
  | '.' :: rest =>
      if rest.head?.any Char.isDigit then
        ('.' :: rest.takeWhile Char.isDigit, rest.dropWhile Char.isDigit)
      else
        ([], text)
  | _ => ([], text)

/-- A number at the start of a text: digits, and a fraction or none.  Further dots and digits
right behind a fraction, or else letters, digits and underscores right behind the number, belong
to the piece but make it faulty. -/
def number (text : List Char) : Piece × List Char :=
  let whole := text.takeWhile Char.isDigit
  let (decimals, rest) := fraction (text.dropWhile Char.isDigit)
  let lexeme := whole ++ decimals
  let kind := Kind.number (Numeral.read (.ofList lexeme))
  let faulty := fun (fault : ScanFault) (belongs : Char → Bool) =>
    (⟨.token kind (some fault), lexeme ++ rest.takeWhile belongs⟩, rest.dropWhile belongs)
  if !decimals.isEmpty && rest.head?.any (· == '.') then
    faulty .extraDecimalPoint fun c => c == '.' || c.isDigit
  else if rest.head?.any startsName then
    faulty .letterAfterNumber isName
  else
    (good kind lexeme, rest)

/-- An identifier or a keyword at the start of a text. -/
def name (text : List Char) : Piece × List Char :=
  let lexeme := text.takeWhile isName
  let kind := match Keyword.ofText? (.ofList lexeme) with
    | some keyword => .keyword keyword
    | none => .identifier
  (good kind lexeme, text.dropWhile isName)

/-- The first piece of the text `c :: rest`, and the text behind it. -/
def first (c : Char) (rest : List Char) : Piece × List Char :=
  match sign? (c :: rest) with
  | some (sign, lexeme, rest) => (good (.sign sign) lexeme, rest)
  | none =>
      if c == ';' || c == '\n' then (good .separator [c], rest)
      else if isSpace c then (⟨.blank, [c]⟩, rest)
      else if c == '"' || c == '\'' then string c rest
      else if c.isDigit then number (c :: rest)
      else if startsName c then name (c :: rest)
      else (⟨.unknown c, [c]⟩, rest)

/-! ## Nothing is lost -/

theorem append_of_sign? {text lexeme rest : List Char} {sign : Sign}
    (found : sign? text = some (sign, lexeme, rest)) : lexeme ++ rest = text ∧ lexeme ≠ [] := by
  unfold sign? at found
  split at found <;> cases found <;> simp

theorem append_string (quote : Char) (text : List Char) :
    (string quote text).1.lexeme ++ (string quote text).2 = quote :: text := by
  have whole := List.takeWhile_append_dropWhile (p := (· != quote)) (l := text)
  unfold string good
  split <;> rename_i closing
  · simp_all
  · rename_i c rest
    have ends : (c != quote) = false := by
      have := List.head?_dropWhile_not (· != quote) text
      simpa [closing] using this
    simp_all

theorem append_fraction (text : List Char) :
    (fraction text).1 ++ (fraction text).2 = text := by
  unfold fraction
  split
  · split
    · simp
    · rfl
  · rfl

theorem append_number (text : List Char) :
    (number text).1.lexeme ++ (number text).2 = text := by
  have decimals := append_fraction (text.dropWhile Char.isDigit)
  simp only [number, good]
  split
  · simp [decimals]
  · split <;> simp [decimals]

theorem append_name (text : List Char) : (name text).1.lexeme ++ (name text).2 = text := by
  simp [name, good]

/-- A first piece and the text behind it are the whole text. -/
theorem append_first (c : Char) (rest : List Char) :
    (first c rest).1.lexeme ++ (first c rest).2 = c :: rest := by
  unfold first
  split
  · rename_i found
    exact (append_of_sign? found).1
  · repeat' split
    all_goals first
      | rfl
      | exact append_string c rest
      | exact append_number (c :: rest)
      | exact append_name (c :: rest)

/-- A first piece is not empty, so less text is left. -/
theorem length_first_lt (c : Char) (rest : List Char) :
    (first c rest).2.length < (c :: rest).length := by
  have whole := congrArg List.length (append_first c rest)
  have nonempty : (first c rest).1.lexeme ≠ [] := by
    unfold first
    split
    · rename_i found
      exact (append_of_sign? found).2
    · repeat' split
      · simp [good]
      · simp
      · unfold string good
        split <;> simp
      · rename_i digit
        simp only [number, good]
        repeat' split
        all_goals simp [digit]
      · rename_i starts
        simp_all [name, good, startsName, isName, Char.isAlphanum]
      · simp
  have := List.length_pos_iff.mpr nonempty
  simp only [List.length_append] at whole
  omega

end Piece

/-! ## All pieces of a text -/

/-- A text cut into pieces. -/
def pieces : List Char → List Piece
  | [] => []
  | c :: rest => (Piece.first c rest).1 :: pieces (Piece.first c rest).2
termination_by text => text.length
decreasing_by exact Piece.length_first_lt c rest

/-- The pieces joined are the text. -/
theorem flatMap_lexeme_pieces (text : List Char) : (pieces text).flatMap Piece.lexeme = text := by
  fun_induction pieces text with
  | case1 => rfl
  | case2 c rest ih => rw [List.flatMap_cons, ih, Piece.append_first]

namespace Piece

/-- How many lines a piece ends. -/
def newlines (piece : Piece) : Nat :=
  piece.lexeme.count '\n'

/-- The token that a piece is, beginning on `line`. -/
def token? (piece : Piece) (line : Nat) : Option Token :=
  match piece.content with
  | .token kind _ => some ⟨kind, .ofList piece.lexeme, line⟩
  | _ => none

/-- The fault of a piece that begins on `line`. -/
def error? (piece : Piece) (line : Nat) : Option CompileError :=
  let report := fun fault => ⟨line, .scan fault, .ofList piece.lexeme⟩
  match piece.content with
  | .blank => none
  | .unknown character => some (report (.unknownCharacter character))
  | .token _ fault => fault.map report

end Piece

/-- The tokens of pieces that begin on `line`, closed by the end of the text. -/
def tokensFrom (line : Nat) : List Piece → List Token
  | [] => [⟨.endOfText, "", line⟩]
  | piece :: pieces => (piece.token? line).toList ++ tokensFrom (line + piece.newlines) pieces

/-- The faults of pieces that begin on `line`. -/
def errorsFrom (line : Nat) : List Piece → List CompileError
  | [] => []
  | piece :: pieces => (piece.error? line).toList ++ errorsFrom (line + piece.newlines) pieces

/-- The tokens of a descriptor and its faults, both in the order of the text. -/
def scan (source : String) : List Token × List CompileError :=
  let pieces := pieces source.toList
  (tokensFrom 1 pieces, errorsFrom 1 pieces)

end Descriptor
