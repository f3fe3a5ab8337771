import Descriptor.Proofs.Exchange
import Descriptor.Proofs.Printing.Bracket
import Descriptor.Proofs.Scanning.Respaced

/-!
# Programs read back from prefix notation

A program is shown as words in brackets, `Stmt.toList_print`.  Here the brackets are read back.
A word or an operator is the token that its lexeme alone is cut as, so that of the tokens only
their lines are lost.  What the parser makes from the tokens of a text comes back, since each of
its tokens is spelled as its kind says: `Stmt.legible`.
-/

namespace Descriptor

open Piece Shown

/-! ## Programs in brackets -/

/-- A literal as a word. -/
def Literal.shown : Literal → Word
  | .number value => .number value
  | .string text => .string text
  | .bool true => .name "true"
  | .bool false => .name "false"
  | .null => .name "null"
  | .undefined => .name "undefined"

mutual

/-- An expression in brackets. -/
def Expr.shown : Expr → Tree
  | .literal value => .word value.shown
  | .variable name => .word (.name name.lexeme)
  | .group inner => .bracket .group [.spaced inner.shown]
  | .array elements => .bracket .array (shownElements elements)
  | .object properties => .bracket .object (shownProperties properties)
  | .unary _ token right => .bracket (.operator token.lexeme) [.spaced right.shown]
  | .binary left _ token right =>
      .bracket (.operator token.lexeme) [.spaced left.shown, .spaced right.shown]
  | .get object accessor => .bracket .get [.spaced object.shown, accessor.shown]
  | .assign target value =>
      .bracket .assign [.spaced (.word (.name target.lexeme)), .spaced value.shown]
  | .set object accessor value =>
      .bracket .set [.spaced object.shown, accessor.shown, .spaced value.shown]

def Accessor.shown : Accessor → Shown.Part
  | .field name => .field name.lexeme
  | .element _ index => .element index.shown

def shownElements : List Expr → List Shown.Part
  | [] => []
  | element :: elements => .spaced element.shown :: shownElements elements

def shownProperties : List (Token × Expr) → List Shown.Part
  | [] => []
  | (name, value) :: properties => .named name.lexeme value.shown :: shownProperties properties

end

mutual

/-- A statement in brackets. -/
def Stmt.shown : Stmt → Tree
  | .block body => .bracket .block (shownBody body)
  | .expression expression => expression.shown
  | .branch condition positive none =>
      .bracket .branch [.spaced condition.shown, .spaced positive.shown]
  | .branch condition positive (some negative) =>
      .bracket .branch [.spaced condition.shown, .spaced positive.shown, .spaced negative.shown]
  | .choice condition positive none =>
      .bracket .choice [.spaced condition.shown, .spaced positive.shown]
  | .choice condition positive (some negative) =>
      .bracket .choice [.spaced condition.shown, .spaced positive.shown, .spaced negative.shown]
  | .declaration name none => .bracket .declaration [.spaced (.word (.name name.lexeme))]
  | .declaration name (some initializer) =>
      .bracket .declaration [.spaced (.word (.name name.lexeme)), .spaced initializer.shown]

def shownBody : List Stmt → List Shown.Part
  | [] => []
  | statement :: body => .spaced statement.shown :: shownBody body

end

theorem Literal.toList_print (value : Literal) : value.print.toList = value.shown.text := by
  rcases value with _ | _ | (_ | _) | _ | _ <;> simp [print, shown]

mutual

theorem Expr.toList_print : ∀ expression : Expr, expression.print.toList = expression.shown.text
  | .literal value => value.toList_print
  | .variable _ => rfl
  | .group inner => by
      simp [Expr.print, Expr.shown, inner.toList_print]
  | .array elements => by
      simp [Expr.print, Expr.shown, toList_printElements elements]
  | .object properties => by
      simp [Expr.print, Expr.shown, toList_printProperties properties]
  | .unary _ token right => by
      simp [Expr.print, Expr.shown, right.toList_print]
  | .binary left _ token right => by
      simp [Expr.print, Expr.shown, left.toList_print, right.toList_print]
  | .get object accessor => by
      simp [Expr.print, Expr.shown, object.toList_print, accessor.toList_print]
  | .assign target value => by
      simp [Expr.print, Expr.shown, value.toList_print]
  | .set object accessor value => by
      simp [Expr.print, Expr.shown,
        object.toList_print, accessor.toList_print, value.toList_print]

theorem Accessor.toList_print : ∀ accessor : Accessor, accessor.print.toList = accessor.shown.text
  | .field name => by simp [Accessor.print, Accessor.shown]
  | .element _ index => by simp [Accessor.print, Accessor.shown, index.toList_print]

theorem toList_printElements : ∀ elements : List Expr,
    (printElements elements).toList = textOfParts (shownElements elements)
  | [] => by simp [printElements, shownElements]
  | element :: elements => by
      simp [printElements, shownElements, element.toList_print, toList_printElements elements]

theorem toList_printProperties : ∀ properties : List (Token × Expr),
    (printProperties properties).toList = textOfParts (shownProperties properties)
  | [] => by simp [printProperties, shownProperties]
  | (name, value) :: properties => by
      simp [printProperties, shownProperties, value.toList_print,
        toList_printProperties properties]

end

mutual

/-- Statements are shown in brackets. -/
theorem Stmt.toList_print : ∀ statement : Stmt, statement.print.toList = statement.shown.text
  | .block body => by
      simp [Stmt.print, Stmt.shown, toList_printBody body]
  | .expression expression => expression.toList_print
  | .branch condition positive none => by
      simp [Stmt.print, Stmt.shown, condition.toList_print, positive.toList_print]
  | .branch condition positive (some negative) => by
      simp [Stmt.print, Stmt.shown,
        condition.toList_print, positive.toList_print, negative.toList_print]
  | .choice condition positive none => by
      simp [Stmt.print, Stmt.shown, condition.toList_print, positive.toList_print]
  | .choice condition positive (some negative) => by
      simp [Stmt.print, Stmt.shown,
        condition.toList_print, positive.toList_print, negative.toList_print]
  | .declaration name none => by
      simp [Stmt.print, Stmt.shown]
  | .declaration name (some initializer) => by
      simp [Stmt.print, Stmt.shown, initializer.toList_print]

theorem toList_printBody : ∀ body : List Stmt,
    (printBody body).toList = textOfParts (shownBody body)
  | [] => by simp [printBody, shownBody]
  | statement :: body => by
      simp [printBody, shownBody, statement.toList_print, toList_printBody body]

end

/-! ## Lexemes as tokens -/

/-- The token that a lexeme is cut as, on no line. -/
def Token.ofLexeme (lexeme : String) : Token :=
  match pieces lexeme.toList with
  | [⟨.token kind _, _⟩] => ⟨kind, lexeme, 0⟩
  | _ => ⟨.endOfText, lexeme, 0⟩

/-- Whether the lexeme of a token is cut as a token of its kind, with a fault or without. -/
def Token.IsSpelled (token : Token) : Prop :=
  ∃ fault, Cut ⟨.token token.kind fault, token.lexeme.toList⟩ []

/-- The spelling of a sign. -/
def Sign.text : Sign → String
  | .colon => ":"
  | .comma => ","
  | .dot => "."
  | .leftBrace => "\x7b"
  | .rightBrace => "\x7d"
  | .leftBracket => "["
  | .rightBracket => "]"
  | .leftParen => "("
  | .rightParen => ")"
  | .minus => "-"
  | .percent => "%"
  | .plus => "+"
  | .slash => "/"
  | .star => "*"
  | .bang => "!"
  | .bangEqual => "!="
  | .bangEqualEqual => "!=="
  | .equal => "="
  | .equalEqual => "=="
  | .equalEqualEqual => "==="
  | .greater => ">"
  | .greaterEqual => ">="
  | .less => "<"
  | .lessEqual => "<="

theorem Sign.toList_text_of_sign? {text lexeme rest : List Char} {sign : Sign}
    (found : sign? text = some (sign, lexeme, rest)) : sign.text.toList = lexeme := by
  unfold sign? at found
  split at found <;> cases found <;> rfl

/-- The spelling of the kinds that have one spelling. -/
def Kind.text? : Kind → Option String
  | .sign which => some which.text
  | .keyword which => some which.text
  | _ => none

theorem eq_of_text?_nameKind {lexeme text : String}
    (isText : (nameKind lexeme.toList).text? = some text) : lexeme = text := by
  unfold nameKind at isText
  split at isText
  · rename_i keyword found
    rw [String.ofList_toList, Keyword.ofText?] at found
    obtain rfl := Option.some.inj isText
    have spelled := List.find?_some found
    exact (beq_iff_eq.mp spelled).symm
  · contradiction

namespace Token.IsSpelled

variable {token : Token}

theorem ofLexeme_eq (spelled : token.IsSpelled) : Token.ofLexeme token.lexeme = token.unplaced := by
  rcases spelled with ⟨fault, cut⟩
  have isPiece := cut.pieces_eq
  rw [List.append_nil] at isPiece
  rw [Token.ofLexeme, isPiece, pieces]
  rfl

/-- A sign or a keyword has the spelling of its kind. -/
theorem lexeme_eq (spelled : token.IsSpelled) {text : String}
    (isText : token.kind.text? = some text) : token.lexeme = text := by
  rcases spelled with ⟨fault, cut⟩
  generalize isPiece : (⟨.token token.kind fault, token.lexeme.toList⟩ : Piece) = piece at cut
  cases cut with
  | sign found =>
      simp only [good, Piece.mk.injEq, Content.token.injEq] at isPiece
      rcases isPiece with ⟨⟨isKind, -⟩, isLexeme⟩
      rw [isKind] at isText
      obtain rfl := Option.some.inj isText
      rw [← String.toList_inj, isLexeme, Sign.toList_text_of_sign? found]
  | name =>
      simp only [good, Piece.mk.injEq, Content.token.injEq] at isPiece
      rcases isPiece with ⟨⟨isKind, -⟩, rfl⟩
      rw [isKind] at isText
      exact eq_of_text?_nameKind isText
  | _ => simp_all [good, Kind.text?, numberKind]

/-- An identifier is spelled as one. -/
theorem spellsName (spelled : token.IsSpelled) (isIdentifier : token.kind = .identifier) :
    SpellsName token.lexeme.toList := by
  rcases spelled with ⟨fault, cut⟩
  generalize isPiece : (⟨.token token.kind fault, token.lexeme.toList⟩ : Piece) = piece at cut
  cases cut with
  | name starts belongs =>
      simp only [good, Piece.mk.injEq] at isPiece
      rw [isPiece.2]
      exact ⟨starts, belongs⟩
  | _ => simp_all [good, numberKind]

end Token.IsSpelled

/-! ## Reading back -/

/-- What a part of a bracket was made from. -/
inductive Component where
  | statement (statement : Stmt)
  | property (name : Token) (value : Expr)
  | step (accessor : Accessor)

/-- The expression that a statement is.  A statement of another form stands for `null` here. -/
@[simp]
def Stmt.asExpr : Stmt → Expr
  | .expression inner => inner
  | _ => .literal .null

@[simp]
def Component.asStmt : Component → Stmt
  | .statement inner => inner
  | _ => .expression (.literal .null)

@[simp]
def Component.asExpr (component : Component) : Expr :=
  component.asStmt.asExpr

@[simp]
def Component.asProperty : Component → Token × Expr
  | .property name value => (name, value)
  | _ => (.ofLexeme "", .literal .null)

/-- What a word was made from. -/
def Shown.Word.read : Word → Expr
  | .name lexeme => (Expr.leaf? (.ofLexeme lexeme)).getD (.literal .null)
  | .number value => .literal (.number value)
  | .string text => .literal (.string text)

/-- The operator of a token that stands in front of its operand. -/
def Token.unary (token : Token) : UnaryOperator :=
  (UnaryOperator.ofKind? token.kind).getD .not

/-- The operator of a token that stands between its operands. -/
def Token.binary (token : Token) : BinaryOperator :=
  (BinaryOperator.ofKind? token.kind).getD .or

/-- What a bracket was made from: its head tells which parts it has. -/
@[simp]
def Shown.Head.read : Head → List Component → Stmt
  | .group, [inner] => .expression (.group inner.asExpr)
  | .array, elements => .expression (.array (elements.map Component.asExpr))
  | .object, properties => .expression (.object (properties.map Component.asProperty))
  | .operator lexeme, [right] =>
      let token := Token.ofLexeme lexeme
      .expression (.unary token.unary token right.asExpr)
  | .operator lexeme, [left, right] =>
      let token := Token.ofLexeme lexeme
      .expression (.binary left.asExpr token.binary token right.asExpr)
  | .get, [holder, .step accessor] => .expression (.get holder.asExpr accessor)
  | .assign, [.statement (.expression (.variable target)), value] =>
      .expression (.assign target value.asExpr)
  | .set, [holder, .step accessor, value] =>
      .expression (.set holder.asExpr accessor value.asExpr)
  | .block, body => .block (body.map Component.asStmt)
  | .branch, [condition, positive] => .branch condition.asExpr positive.asStmt none
  | .branch, [condition, positive, negative] =>
      .branch condition.asExpr positive.asStmt (some negative.asStmt)
  | .choice, [condition, positive] => .choice condition.asExpr positive.asExpr none
  | .choice, [condition, positive, negative] =>
      .choice condition.asExpr positive.asExpr (some negative.asExpr)
  | .declaration, [.statement (.expression (.variable name))] => .declaration name none
  | .declaration, [.statement (.expression (.variable name)), initializer] =>
      .declaration name (some initializer.asExpr)
  | _, _ => .expression (.literal .null)

mutual

/-- What a tree was made from, with tokens on no line. -/
@[simp]
def Shown.Tree.read : Tree → Stmt
  | .word word => .expression word.read
  | .bracket head parts => head.read (readParts parts)

@[simp]
def Shown.Part.read : Shown.Part → Component
  | .spaced tree => .statement tree.read
  | .named name value => .property (.ofLexeme name) value.read.asExpr
  | .field name => .step (.field (.ofLexeme name))
  | .element index => .step (.element (.ofLexeme "[") index.read.asExpr)

@[simp]
def readParts : List Shown.Part → List Component
  | [] => []
  | part :: parts => part.read :: readParts parts

end

/-! ## What comes back -/

/-- What a symbol says of a token that was cut from a text, if there are only finite numbers and no
quotes in strings. -/
def Symbol.Sound : Symbol → Prop
  | .exact token => token.IsSpelled
  | .sort (.number value) => (Word.number value).Valid
  | .sort (.string text) => (Word.string text).Valid
  | _ => True

/-- A tree that is read back as the statement that it was made from, but for lines. -/
structure Legible (tree : Tree) (statement : Stmt) : Prop where
  valid : tree.Valid
  read : tree.read = statement.mapTokens Token.unplaced

/-! ### Words and operators -/

theorem Keyword.spellsName_text (keyword : Keyword) : SpellsName keyword.text.toList := by
  rcases keyword with _ | _ | _ | _ | _ | _ | _ | _ | _ | _ | (_ | _) <;>
    exact ⟨by decide, List.all_eq_true.mp (by decide)⟩

theorem Keyword.ofLexeme_text (keyword : Keyword) :
    Token.ofLexeme keyword.text = ⟨.keyword keyword, keyword.text, 0⟩ := by
  have spells := keyword.spellsName_text
  have isKind : nameKind keyword.text.toList = .keyword keyword := by
    rw [nameKind, String.ofList_toList, Keyword.ofText?_text]
  have cut := Cut.name spells.starts spells.belongs stops_nil
  rw [isKind] at cut
  have spelled : Token.IsSpelled ⟨.keyword keyword, keyword.text, 0⟩ := ⟨none, cut⟩
  exact spelled.ofLexeme_eq

theorem UnaryOperator.mem_operators {kind : Kind} {operator : UnaryOperator}
    (isOperator : ofKind? kind = some operator) :
    ∃ text ∈ Head.operators, kind.text? = some text := by
  unfold ofKind? at isOperator
  split at isOperator
  · exact ⟨"-", by decide, rfl⟩
  · exact ⟨"!", by decide, rfl⟩
  · rename_i which
    cases which
    · exact ⟨"toString", by decide, rfl⟩
    · exact ⟨"toBool", by decide, rfl⟩
  · contradiction

theorem BinaryOperator.mem_operators {kind : Kind} {operator : BinaryOperator}
    (isOperator : ofKind? kind = some operator) :
    ∃ text ∈ Head.operators, kind.text? = some text := by
  use Head.binary operator
  constructor
  · exact List.mem_append_left _ (List.mem_map_of_mem operator.mem_all)
  · unfold ofKind? at isOperator
    split at isOperator <;> cases isOperator <;> rfl

theorem Token.IsSpelled.operator_mem_all {token : Token} (spelled : token.IsSpelled)
    (isOperator : ∃ text ∈ Head.operators, token.kind.text? = some text) :
    .operator token.lexeme ∈ Head.all := by
  rcases isOperator with ⟨text, isOperator, isText⟩
  rw [spelled.lexeme_eq isText]
  exact Head.operator_mem_all isOperator

theorem Literal.legible (value : Literal) (sound : (Symbol.sort value.kind).Sound) :
    Legible (.word value.shown) (.expression (.literal value)) := by
  have ofKeyword : ∀ keyword : Keyword,
      Expr.leaf? (Token.ofLexeme keyword.text) = some (.literal value) →
        Legible (.word (.name keyword.text)) (.expression (.literal value)) := by
    intro keyword leaf
    refine ⟨keyword.spellsName_text, ?_⟩
    rw [Shown.Tree.read, Shown.Word.read, leaf]
    rfl
  rcases value with _ | _ | (_ | _) | _ | _
  · exact ⟨sound, rfl⟩
  · exact ⟨sound, rfl⟩
  · exact ofKeyword .false (by rw [Keyword.ofLexeme_text]; rfl)
  · exact ofKeyword .true (by rw [Keyword.ofLexeme_text]; rfl)
  · exact ofKeyword .null (by rw [Keyword.ofLexeme_text]; rfl)
  · exact ofKeyword .undefined (by rw [Keyword.ofLexeme_text]; rfl)

/-- The lexeme of an identifier is read back as a variable. -/
theorem Token.read_word {name : Token} (isIdentifier : name.kind = .identifier)
    (spelled : name.IsSpelled) : (Word.name name.lexeme).read = .variable name.unplaced := by
  have leaf : Expr.leaf? name.unplaced = some (.variable name.unplaced) := by
    simp [Expr.leaf?, Token.unplaced, isIdentifier]
  rw [Shown.Word.read, spelled.ofLexeme_eq, leaf, Option.getD_some]

/-! ### Expressions -/

/-- The symbols of items are among those of their list. -/
theorem mem_spellItems {close : Sign} {items : List (List Symbol)} {item : List Symbol}
    (isItem : item ∈ items) {symbol : Symbol} (member : symbol ∈ item) :
    symbol ∈ spellItems close items := by
  induction items using spellItems.induct with
  | case1 => cases isItem
  | case2 only =>
      rw [List.mem_singleton] at isItem
      subst isItem
      exact List.mem_append_left _ member
  | case3 first next items ih =>
      rw [spellItems, List.mem_append, List.mem_cons]
      rcases List.mem_cons.mp isItem with rfl | isItem
      · exact .inl member
      · exact .inr (.inr (ih isItem))

mutual

/-- A canonical expression with sound symbols is read back. -/
theorem Expr.legible : ∀ expression : Expr, expression.Canonical →
    (∀ symbol ∈ expression.spell, symbol.Sound) → Legible expression.shown (.expression expression)
  | .literal value, _, sound => value.legible (sound _ List.mem_cons_self)
  | .variable name, isIdentifier, sound => by
      have spelled : name.IsSpelled := sound _ List.mem_cons_self
      refine ⟨spelled.spellsName isIdentifier, ?_⟩
      rw [Expr.shown, Shown.Tree.read, Token.read_word isIdentifier spelled]
      rfl
  | .group inner, canonical, sound => by
      simp only [Expr.spell, List.forall_mem_cons, List.forall_mem_append] at sound
      have inside := inner.legible canonical sound.2.1
      refine ⟨⟨by decide, inside.valid, trivial⟩, ?_⟩
      simp [Expr.shown, inside.read, Stmt.mapTokens, Expr.mapTokens]
  | .array elements, canonical, sound => by
      simp only [Expr.spell, List.forall_mem_cons] at sound
      rcases legible_elements elements canonical fun item isItem symbol member =>
        sound.2 symbol (mem_spellItems isItem member) with ⟨valid, read⟩
      refine ⟨⟨by decide, valid⟩, ?_⟩
      simp [Expr.shown, read, Stmt.mapTokens, Expr.mapTokens]
  | .object properties, canonical, sound => by
      simp only [Expr.spell, List.forall_mem_cons] at sound
      rcases legible_properties properties canonical fun item isItem symbol member =>
        sound.2.2 symbol (mem_spellItems isItem member) with ⟨valid, read⟩
      refine ⟨⟨by decide, valid⟩, ?_⟩
      simp [Expr.shown, read, Stmt.mapTokens, Expr.mapTokens]
  | .unary operator token right, ⟨isOperator, _, canonical⟩, sound => by
      simp only [Expr.spell, List.forall_mem_cons] at sound
      rcases sound with ⟨spelled, sound⟩
      have operand := right.legible canonical sound
      refine ⟨⟨spelled.operator_mem_all (UnaryOperator.mem_operators isOperator), operand.valid,
        trivial⟩, ?_⟩
      have same : token.unplaced.unary = operator := by
        simp [Token.unary, Token.unplaced, isOperator]
      simp [Expr.shown, operand.read, spelled.ofLexeme_eq, same, Stmt.mapTokens, Expr.mapTokens]
  | .binary left operator token right,
      ⟨isOperator, _, _, canonicalLeft, canonicalRight⟩, sound => by
      simp only [Expr.spell, List.forall_mem_cons, List.forall_mem_append] at sound
      rcases sound with ⟨soundLeft, spelled, soundRight⟩
      have first := left.legible canonicalLeft soundLeft
      have second := right.legible canonicalRight soundRight
      refine ⟨⟨spelled.operator_mem_all (BinaryOperator.mem_operators isOperator), first.valid,
        second.valid, trivial⟩, ?_⟩
      have same : token.unplaced.binary = operator := by
        simp [Token.binary, Token.unplaced, isOperator]
      simp [Expr.shown, first.read, second.read, spelled.ofLexeme_eq, same, Stmt.mapTokens,
        Expr.mapTokens]
  | .get object accessor, ⟨_, canonicalObject, canonicalAccessor⟩, sound => by
      simp only [Expr.spell, List.forall_mem_append] at sound
      have holder := object.legible canonicalObject sound.1
      rcases accessor.legible canonicalAccessor sound.2 with ⟨valid, read⟩
      refine ⟨⟨by decide, holder.valid, valid, trivial⟩, ?_⟩
      simp [Expr.shown, holder.read, read, Stmt.mapTokens, Expr.mapTokens]
  | .assign target value, ⟨isIdentifier, canonical⟩, sound => by
      simp only [Expr.spell, List.forall_mem_cons] at sound
      have spelled : target.IsSpelled := sound.1
      have assigned := value.legible canonical sound.2.2
      refine ⟨⟨by decide, spelled.spellsName isIdentifier, assigned.valid, trivial⟩, ?_⟩
      simp [Expr.shown, Token.read_word isIdentifier spelled, assigned.read, Stmt.mapTokens,
        Expr.mapTokens]
  | .set object accessor value, ⟨_, canonicalObject, canonicalAccessor, canonicalValue⟩, sound => by
      simp only [Expr.spell, List.forall_mem_cons, List.forall_mem_append] at sound
      have holder := object.legible canonicalObject sound.1
      rcases accessor.legible canonicalAccessor sound.2.1 with ⟨valid, read⟩
      have written := value.legible canonicalValue sound.2.2.2
      refine ⟨⟨by decide, holder.valid, valid, written.valid, trivial⟩, ?_⟩
      simp [Expr.shown, holder.read, read, written.read, Stmt.mapTokens, Expr.mapTokens]

theorem Accessor.legible : ∀ accessor : Accessor, accessor.Canonical →
    (∀ symbol ∈ accessor.spell, symbol.Sound) →
      accessor.shown.Valid ∧ accessor.shown.read = .step (accessor.mapTokens Token.unplaced)
  | .field name, isIdentifier, sound => by
      simp only [Accessor.spell, List.forall_mem_cons] at sound
      have spelled : name.IsSpelled := sound.2.1
      refine ⟨spelled.spellsName isIdentifier, ?_⟩
      simp [Accessor.shown, spelled.ofLexeme_eq, Accessor.mapTokens]
  | .element bracket index, ⟨isBracket, canonical⟩, sound => by
      simp only [Accessor.spell, List.forall_mem_cons, List.forall_mem_append] at sound
      have inside := index.legible canonical sound.2.1
      have spelled : bracket.IsSpelled := sound.1
      have lexeme : bracket.lexeme = "[" := spelled.lexeme_eq (by rw [isBracket]; rfl)
      have token := spelled.ofLexeme_eq
      rw [lexeme] at token
      refine ⟨inside.valid, ?_⟩
      simp [Accessor.shown, inside.read, token, Stmt.mapTokens, Accessor.mapTokens]

theorem legible_elements : ∀ elements : List Expr, CanonicalElements elements →
    (∀ item ∈ spellElements elements, ∀ symbol ∈ item, symbol.Sound) →
      ValidParts (shownElements elements) ∧
        (readParts (shownElements elements)).map Component.asExpr =
          mapElements Token.unplaced elements
  | [], _, _ => ⟨trivial, rfl⟩
  | element :: elements, ⟨canonical, canonicalOthers⟩, sound => by
      rw [spellElements, List.forall_mem_cons] at sound
      have first := element.legible canonical sound.1
      rcases legible_elements elements canonicalOthers sound.2 with ⟨valid, read⟩
      refine ⟨⟨first.valid, valid⟩, ?_⟩
      simp [shownElements, first.read, Stmt.mapTokens, mapElements, ← read]

theorem legible_properties : ∀ properties : List (Token × Expr), CanonicalProperties properties →
    (∀ item ∈ spellProperties properties, ∀ symbol ∈ item, symbol.Sound) →
      ValidParts (shownProperties properties) ∧
        (readParts (shownProperties properties)).map Component.asProperty =
          mapProperties Token.unplaced properties
  | [], _, _ => ⟨trivial, rfl⟩
  | (name, value) :: properties, ⟨isIdentifier, canonical, canonicalOthers⟩, sound => by
      rw [spellProperties, List.forall_mem_cons] at sound
      simp only [List.forall_mem_cons] at sound
      have spelled : name.IsSpelled := sound.1.1
      have first := value.legible canonical sound.1.2.2
      rcases legible_properties properties canonicalOthers sound.2 with ⟨valid, read⟩
      refine ⟨⟨⟨spelled.spellsName isIdentifier, first.valid⟩, valid⟩, ?_⟩
      simp [shownProperties, first.read, spelled.ofLexeme_eq, Stmt.mapTokens, mapProperties,
        ← read]

end

/-! ### Statements -/

mutual

/-- A canonical statement with sound symbols is read back. -/
theorem Stmt.legible : ∀ statement : Stmt, statement.Canonical →
    (∀ symbol ∈ statement.spell [], symbol.Sound) → Legible statement.shown statement
  | .block body, canonical, sound => by
      simp only [Stmt.spell, List.forall_mem_cons, List.forall_mem_append] at sound
      rcases legible_body body canonical sound.2.1 with ⟨valid, read⟩
      refine ⟨⟨by decide, valid⟩, ?_⟩
      simp [Stmt.shown, read, Stmt.mapTokens]
  | .expression expression, canonical, sound => by
      simp only [Stmt.spell, List.append_nil] at sound
      exact expression.legible canonical sound
  | .branch condition positive none, ⟨canonicalCondition, canonicalPositive, _⟩, sound => by
      simp only [Stmt.spell, List.forall_mem_cons, List.forall_mem_append] at sound
      have first := condition.legible canonicalCondition sound.2.2.1
      have second := positive.legible canonicalPositive sound.2.2.2.2
      refine ⟨⟨by decide, first.valid, second.valid, trivial⟩, ?_⟩
      simp [Stmt.shown, first.read, second.read, Stmt.mapTokens]
  | .branch condition positive (some negative),
      ⟨canonicalCondition, canonicalPositive, _, _, canonicalNegative, _⟩, sound => by
      simp only [Stmt.spell, List.forall_mem_cons, List.forall_mem_append] at sound
      have first := condition.legible canonicalCondition sound.2.2.1
      have second := positive.legible canonicalPositive sound.2.2.2.2.1
      have third := negative.legible canonicalNegative sound.2.2.2.2.2.2
      refine ⟨⟨by decide, first.valid, second.valid, third.valid, trivial⟩, ?_⟩
      simp [Stmt.shown, first.read, second.read, third.read, Stmt.mapTokens]
  | .choice condition positive none, ⟨_, canonicalCondition, canonicalPositive⟩, sound => by
      simp only [Stmt.spell, List.forall_mem_cons, List.forall_mem_append] at sound
      have first := condition.legible canonicalCondition sound.2.1
      have second := positive.legible canonicalPositive sound.2.2.2.2.2.1
      refine ⟨⟨by decide, first.valid, second.valid, trivial⟩, ?_⟩
      simp [Stmt.shown, first.read, second.read, Stmt.mapTokens]
  | .choice condition positive (some negative),
      ⟨_, canonicalCondition, canonicalPositive, canonicalNegative⟩, sound => by
      simp only [Stmt.spell, List.forall_mem_cons, List.forall_mem_append] at sound
      have first := condition.legible canonicalCondition sound.2.1
      have second := positive.legible canonicalPositive sound.2.2.2.2.2.1
      have third := negative.legible canonicalNegative sound.2.2.2.2.2.2.2.2.2.1
      refine ⟨⟨by decide, first.valid, second.valid, third.valid, trivial⟩, ?_⟩
      simp [Stmt.shown, first.read, second.read, third.read, Stmt.mapTokens]
  | .declaration name none, isIdentifier, sound => by
      simp only [Stmt.spell, List.forall_mem_cons] at sound
      have spelled : name.IsSpelled := sound.2.1
      refine ⟨⟨by decide, spelled.spellsName isIdentifier, trivial⟩, ?_⟩
      simp [Stmt.shown, Token.read_word isIdentifier spelled, Stmt.mapTokens]
  | .declaration name (some initializer), ⟨isIdentifier, canonical⟩, sound => by
      simp only [Stmt.spell, List.forall_mem_cons, List.forall_mem_append] at sound
      have spelled : name.IsSpelled := sound.2.1
      have initial := initializer.legible canonical sound.2.2.2.1
      refine ⟨⟨by decide, spelled.spellsName isIdentifier, initial.valid, trivial⟩, ?_⟩
      simp [Stmt.shown, Token.read_word isIdentifier spelled, initial.read, Stmt.mapTokens]

theorem legible_body : ∀ body : List Stmt, CanonicalBody body →
    (∀ symbol ∈ spellBody [] body, symbol.Sound) →
      ValidParts (shownBody body) ∧
        (readParts (shownBody body)).map Component.asStmt = mapBody Token.unplaced body
  | [], _, _ => ⟨trivial, rfl⟩
  | statement :: body, ⟨canonical, canonicalOthers⟩, sound => by
      rw [spellBody, List.forall_mem_append] at sound
      have first := statement.legible canonical sound.1
      rcases legible_body body canonicalOthers sound.2 with ⟨valid, read⟩
      refine ⟨⟨first.valid, valid⟩, ?_⟩
      simp [shownBody, first.read, mapBody, ← read]

end

/-- Statements that look the same are the same but for lines, if both are read back. -/
theorem Stmt.eq_of_print_eq {statement statement' : Stmt}
    (legible : Legible statement.shown statement) (legible' : Legible statement'.shown statement')
    (same : statement.print = statement'.print) :
    statement.mapTokens Token.unplaced = statement'.mapTokens Token.unplaced := by
  have texts : statement.shown.text ++ [] = statement'.shown.text ++ [] := by
    rw [← statement.toList_print, ← statement'.toList_print, same]
  have ends : Ends [] := trivial
  rcases Shown.Tree.text_append_inj _ _ legible.valid legible'.valid ends ends texts with
    ⟨trees, -⟩
  rw [← legible.read, trees, legible'.read]

end Descriptor
