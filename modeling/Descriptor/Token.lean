/-!
# Tokens

The words and signs a descriptor is made of.  A token keeps the text it was cut from and the line
it begins on, which diagnostics and printed trees refer to.
-/

namespace Descriptor

/-- Signs, of one to three characters. -/
inductive Sign where
  | colon | comma | dot
  | leftBrace | rightBrace | leftBracket | rightBracket | leftParen | rightParen
  | minus | percent | plus | slash | star
  | bang | bangEqual | bangEqualEqual
  | equal | equalEqual | equalEqualEqual
  | greater | greaterEqual | less | lessEqual
  deriving Repr, DecidableEq

/-- The operators that convert a value. -/
inductive Conversion where
  | toText
  | toTruth
  deriving Repr, DecidableEq

/-- Words that cannot name a variable. -/
inductive Keyword where
  | and | or
  | true | false | null | undefined
  | letWord | ifWord | elseWord | doWord
  | conversion (conversion : Conversion)
  deriving Repr, DecidableEq

/-- The values that can be written down as a single token. -/
inductive Literal where
  | number (value : Float)
  | string (text : String)
  | bool (value : Bool)
  | null
  | undefined
  deriving DecidableEq

/-- What a token is.  A separator is a newline or a semicolon. -/
inductive Kind where
  | separator
  | sign (sign : Sign)
  | keyword (keyword : Keyword)
  | identifier
  | string (text : String)
  | number (value : Float)
  | endOfText
  deriving DecidableEq

/-- A token with its text and the line on which it begins, counted from one. -/
structure Token where
  kind : Kind
  lexeme : String
  line : Nat
  deriving DecidableEq

/-- The spelling of a conversion. -/
def Conversion.text : Conversion → String
  | .toText => "toString"
  | .toTruth => "toBool"

namespace Keyword

/-- The spelling of a keyword. -/
def text : Keyword → String
  | .and => "and"
  | .or => "or"
  | .true => "true"
  | .false => "false"
  | .null => "null"
  | .undefined => "undefined"
  | .letWord => "let"
  | .ifWord => "if"
  | .elseWord => "else"
  | .doWord => "do"
  | .conversion which => which.text

/-- All keywords. -/
def all : List Keyword :=
  [.and, .or, .true, .false, .null, .undefined, .letWord, .ifWord, .elseWord, .doWord,
   .conversion .toText, .conversion .toTruth]

theorem mem_all (keyword : Keyword) : keyword ∈ all := by
  rcases keyword with _ | _ | _ | _ | _ | _ | _ | _ | _ | _ | (_ | _) <;> decide

/-- The keyword with the given spelling. -/
def ofText? (word : String) : Option Keyword :=
  all.find? (·.text == word)

@[simp]
theorem ofText?_text (keyword : Keyword) : ofText? keyword.text = some keyword := by
  rcases keyword with _ | _ | _ | _ | _ | _ | _ | _ | _ | _ | (_ | _) <;> decide

end Keyword

namespace Kind

/-- The value a token of this kind stands for by itself.  A conversion gives its own name. -/
def literal? : Kind → Option Literal
  | .number value => some (.number value)
  | .string text => some (.string text)
  | .keyword .true => some (.bool true)
  | .keyword .false => some (.bool false)
  | .keyword .null => some .null
  | .keyword .undefined => some .undefined
  | .keyword (.conversion which) => some (.string which.text)
  | _ => none

end Kind

namespace Token

/-- Whether the token separates statements. -/
def isSeparator (token : Token) : Bool :=
  token.kind == .separator

end Token

end Descriptor
