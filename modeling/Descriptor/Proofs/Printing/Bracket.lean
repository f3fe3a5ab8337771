import Descriptor.Expr
import Descriptor.Proofs.Number.Numeral

/-!
# Words in brackets

In prefix notation a program is shown as words in brackets.  Behind its opening sign a bracket has
a head, and then parts of a few forms, each with a sign of its own in front.  Nothing is escaped,
and still the text shows where each word ends: at a sign that does not belong to it, or at a quote.
So in front of any two texts that may stand behind them, brackets that look the same are the same,
`Tree.text_append_inj`.
-/

namespace Descriptor.Shown

open Piece Binary64

/-! ## Words -/

/-- A word as it is shown. -/
inductive Word where
  | name (lexeme : String)
  | number (value : Float)
  | string (text : String)

/-- A letter or an underscore, and behind it letters, digits and underscores. -/
structure SpellsName (text : List Char) : Prop where
  starts : text.head?.any startsName = true
  belongs : ∀ c ∈ text, isName c = true

namespace Word

/-- The text of a word.  That of a string stands between quotes as it is. -/
@[simp]
def text : Word → List Char
  | .name lexeme => lexeme.toList
  | .number value => (Numeral.plain value).toList
  | .string text => '"' :: (text.toList ++ ['"'])

/-- A name is spelled as one, a number is finite and has no sign, and a string has no quotes. -/
def Valid : Word → Prop
  | .name lexeme => SpellsName lexeme.toList
  | .number value => ∃ pattern, form value = .finite false pattern
  | .string text => '"' ∉ text.toList

end Word

/-! ## What stands behind a word -/

/-- The texts that may stand behind a word. -/
def Ends : List Char → Prop
  | [] => True
  | c :: rest => c = ' ' ∨ c = ')' ∨ c = '[' ∨ c = ']' ∨ c = '.' ∧ rest.head?.any startsName = true

section Ends

variable {rest : List Char}

theorem Ends.stops (ends : Ends rest) : Stops isName rest := by
  cases rest with
  | nil => rfl
  | cons c rest =>
      rw [stops_cons]
      rcases ends with rfl | rfl | rfl | rfl | ⟨rfl, -⟩ <;> decide

/-- A name begins with no digit, so that no fraction begins behind a word. -/
theorem Ends.fraction_eq (ends : Ends rest) : (fraction rest).1 = [] := by
  unfold fraction
  split
  · rename_i behind
    split
    · rename_i digit
      rcases ends with same | same | same | same | ⟨-, starts⟩
      · contradiction
      · contradiction
      · contradiction
      · contradiction
      · cases behind with
        | nil => simp at digit
        | cons d behind =>
            rw [List.head?_cons, Option.any_some] at starts digit
            rw [startsName_of_isDigit digit] at starts
            contradiction
    · rfl
  · rfl

theorem not_ends_colon : ¬Ends (':' :: rest) := by
  simp [Ends]

end Ends

/-! ## Runs of characters -/

/-- Where a run ends, the text shows. -/
theorem run_append_inj {belongs : Char → Bool} {used used' rest rest' : List Char}
    (run : ∀ c ∈ used, belongs c = true) (run' : ∀ c ∈ used', belongs c = true)
    (stops : Stops belongs rest) (stops' : Stops belongs rest')
    (same : used ++ rest = used' ++ rest') : used = used' ∧ rest = rest' := by
  constructor
  · rw [← takeWhile_of_stops run stops, same, takeWhile_of_stops run' stops']
  · rw [← dropWhile_of_stops run stops, same, dropWhile_of_stops run' stops']

theorem name_text_append_inj {name name' rest rest' : List Char} (spells : SpellsName name)
    (spells' : SpellsName name') (stops : Stops Piece.isName rest)
    (stops' : Stops Piece.isName rest') (same : name ++ rest = name' ++ rest') :
    name = name' ∧ rest = rest' :=
  run_append_inj spells.belongs spells'.belongs stops stops' same

/-- Where a number ends, the text shows. -/
theorem number_append_inj {whole whole' decimals decimals' rest rest' : List Char}
    (digits : IsDigits whole) (digits' : IsDigits whole') (isFraction : IsFraction decimals)
    (isFraction' : IsFraction decimals') (ends : Ends rest) (ends' : Ends rest')
    (same : whole ++ (decimals ++ rest) = whole' ++ (decimals' ++ rest')) :
    whole = whole' ∧ decimals = decimals' ∧ rest = rest' := by
  have stops : ∀ {decimals rest : List Char}, IsFraction decimals → Ends rest →
      Stops Char.isDigit (decimals ++ rest) := by
    rintro _ rest (rfl | ⟨digits, -, rfl⟩) ends
    · exact stopsDigit_of_stopsName ends.stops
    · exact stops_cons.mpr (by decide)
  rcases run_append_inj digits.2 digits'.2 (stops isFraction ends) (stops isFraction' ends') same
    with ⟨wholes, behind⟩
  have parts := fraction_append isFraction (fun _ => ends.fraction_eq)
    (stopsDigit_of_stopsName ends.stops)
  rw [behind, fraction_append isFraction' (fun _ => ends'.fraction_eq)
    (stopsDigit_of_stopsName ends'.stops)] at parts
  rcases Prod.mk.inj parts with ⟨fractions, rests⟩
  exact ⟨wholes, fractions.symm, rests.symm⟩

/-! ## One word -/

theorem plain_of_form {x : Float} {negative : Bool} {pattern : Nat}
    (isForm : form x = .finite negative pattern) (nonzero : pattern ≠ 0) :
    Numeral.plain x =
      .ofList (Numeral.signed negative (Decimal.shortest pattern).positional) := by
  unfold Numeral.plain
  rw [isForm]
  cases pattern with
  | zero => exact absurd rfl nonzero
  | succ pattern => rfl

theorem plain_of_form_zero {x : Float} {negative : Bool} (isForm : form x = .finite negative 0) :
    Numeral.plain x = .ofList (Numeral.signed negative ['0']) := by
  unfold Numeral.plain
  rw [isForm]
  rfl

/-- A finite number without a sign is shown as digits with a fraction or without, which read back
as it. -/
theorem exists_plain {x : Float} {pattern : Nat} (isForm : form x = .finite false pattern) :
    ∃ whole decimals, (Numeral.plain x).toList = whole ++ decimals ∧ IsDigits whole ∧
      IsFraction decimals ∧ Numeral.read (Numeral.plain x) = x := by
  rcases form_eq_finite isForm with ⟨finite, isNumber⟩
  rcases Nat.eq_zero_or_pos pattern with zero | positive
  · subst zero
    have isRead : Decimal.read? ['0'] = some ⟨0, 0⟩ := by decide
    rw [plain_of_form_zero isForm, Numeral.read_signed isRead, Decimal.toFloat,
      Decimal.nearestPattern_eq, if_pos (.inl rfl), ← isNumber]
    refine ⟨['0'], [], ?_, ⟨by simp, by simp⟩, .inl rfl, rfl⟩
    rw [String.toList_ofList, Numeral.signed, if_neg Bool.false_ne_true, List.append_nil]
  · have nonzero := Nat.ne_of_gt positive
    rcases Decimal.readsAs_positional (Decimal.digits_shortest_ne_zero nonzero finite) with
      ⟨whole, decimals, d, isText, digits, fraction, isRead, same⟩
    rw [plain_of_form isForm nonzero, Numeral.read_signed isRead, Decimal.toFloat, same,
      Decimal.nearestPattern_shortest nonzero finite, ← isNumber]
    refine ⟨whole, decimals, ?_, digits, fraction, rfl⟩
    rw [String.toList_ofList, Numeral.signed, if_neg Bool.false_ne_true, isText]

namespace Word

/-- Whether a word of this form begins with a character. -/
def beginsWith : Word → Char → Bool
  | .name _ => startsName
  | .number _ => Char.isDigit
  | .string _ => (· == '"')

theorem exists_first {word : Word} (valid : word.Valid) :
    ∃ c rest, word.text = c :: rest ∧ word.beginsWith c = true := by
  cases word with
  | name lexeme =>
      rcases valid with ⟨starts, -⟩
      cases isText : lexeme.toList with
      | nil =>
          rw [isText] at starts
          contradiction
      | cons c rest =>
          rw [isText] at starts
          exact ⟨c, rest, isText, starts⟩
  | number value =>
      rcases valid with ⟨pattern, isForm⟩
      rcases exists_plain isForm with ⟨_ | ⟨c, whole⟩, decimals, isText, digits, -⟩
      · exact absurd rfl digits.1
      · exact ⟨c, whole ++ decimals, isText, digits.2 c List.mem_cons_self⟩
  | string text => exact ⟨'"', _, rfl, rfl⟩

/-- The first character of a word shows its form. -/
theorem cases_of_beginsWith {word word' : Word} {c : Char} (first : word.beginsWith c = true)
    (first' : word'.beginsWith c = true) :
    (∃ lexeme lexeme', word = .name lexeme ∧ word' = .name lexeme') ∨
      (∃ value value', word = .number value ∧ word' = .number value') ∨
        ∃ inside inside', word = .string inside ∧ word' = .string inside' := by
  have noDigit : startsName c = true → c.isDigit = true → False := fun starts digit => by
    rw [startsName_of_isDigit digit] at starts
    contradiction
  have noQuote : c = '"' → startsName c = false ∧ c.isDigit = false := by
    rintro rfl
    decide
  cases word <;> cases word' <;> simp_all [beginsWith]

theorem name_append_inj {lexeme lexeme' : String} (valid : (name lexeme).Valid)
    (valid' : (name lexeme').Valid) {rest rest' : List Char} (ends : Ends rest)
    (ends' : Ends rest') (same : lexeme.toList ++ rest = lexeme'.toList ++ rest') :
    lexeme = lexeme' ∧ rest = rest' :=
  (name_text_append_inj valid valid' ends.stops ends'.stops same).imp String.toList_inj.mp id

theorem plain_append_inj {value value' : Float} (valid : (number value).Valid)
    (valid' : (number value').Valid) {rest rest' : List Char} (ends : Ends rest)
    (ends' : Ends rest')
    (same : (Numeral.plain value).toList ++ rest = (Numeral.plain value').toList ++ rest') :
    value = value' ∧ rest = rest' := by
  rcases valid with ⟨pattern, isForm⟩
  rcases valid' with ⟨pattern', isForm'⟩
  rcases exists_plain isForm with ⟨whole, decimals, isPlain, digits, fraction, isRead⟩
  rcases exists_plain isForm' with ⟨whole', decimals', isPlain', digits', fraction', isRead'⟩
  rw [isPlain, isPlain', List.append_assoc, List.append_assoc] at same
  rcases number_append_inj digits digits' fraction fraction' ends ends' same with
    ⟨wholes, fractions, rests⟩
  rw [wholes, fractions, ← isPlain', String.toList_inj] at isPlain
  rw [← isRead, isPlain, isRead']
  exact ⟨rfl, rests⟩

theorem string_append_inj {inside inside' : String} (valid : (string inside).Valid)
    (valid' : (string inside').Valid) {rest rest' : List Char}
    (same : inside.toList ++ '"' :: rest = inside'.toList ++ '"' :: rest') :
    inside = inside' ∧ rest = rest' := by
  have run : ∀ {inside : String}, (string inside).Valid →
      ∀ c ∈ inside.toList, (c != '"') = true := by
    intro inside valid c member
    rw [bne_iff_ne]
    rintro rfl
    exact valid member
  have stops : ∀ rest, Stops (· != '"') ('"' :: rest) := fun _ => stops_cons.mpr rfl
  rcases run_append_inj (run valid) (run valid') (stops rest) (stops rest') same with
    ⟨texts, rests⟩
  exact ⟨String.toList_inj.mp texts, (List.cons.inj rests).2⟩

/-- Where a word ends, and which one it is, the text shows. -/
theorem text_append_inj {word word' : Word} (valid : word.Valid) (valid' : word'.Valid)
    {rest rest' : List Char} (ends : Ends rest) (ends' : Ends rest')
    (same : word.text ++ rest = word'.text ++ rest') : word = word' ∧ rest = rest' := by
  rcases exists_first valid with ⟨c, others, isText, first⟩
  rcases exists_first valid' with ⟨c', others', isText', first'⟩
  have firsts : c = c' := by
    rw [isText, isText', List.cons_append, List.cons_append] at same
    exact (List.cons.inj same).1
  subst firsts
  rcases cases_of_beginsWith first first' with
    ⟨lexeme, lexeme', rfl, rfl⟩ | ⟨value, value', rfl, rfl⟩ | ⟨inside, inside', rfl, rfl⟩
  · exact (name_append_inj valid valid' ends ends' same).imp_left (congrArg name)
  · exact (plain_append_inj valid valid' ends ends' same).imp_left (congrArg number)
  · simp only [text, List.cons_append, List.append_assoc, List.nil_append, List.cons.injEq,
      true_and] at same
    exact (string_append_inj valid valid' same).imp_left (congrArg string)

end Word

/-! ## Heads -/

/-- The head of a bracket says what the parts behind it are. -/
inductive Head where
  | group | array | object | get | assign | set
  | block | branch | choice | declaration
  | operator (lexeme : String)
  deriving DecidableEq

namespace Head

@[simp]
def text : Head → String
  | .group => "group"
  | .array => "array"
  | .object => "object"
  | .get => "get"
  | .assign => "="
  | .set => "set"
  | .block => "block"
  | .branch => "if"
  | .choice => "if-do"
  | .declaration => "let"
  | .operator lexeme => lexeme

/-- The lexeme of an operator between two operands. -/
def binary : BinaryOperator → String
  | .add => "+"
  | .subtract => "-"
  | .multiply => "*"
  | .divide => "/"
  | .greater => ">"
  | .greaterEqual => ">="
  | .less => "<"
  | .lessEqual => "<="
  | .looseEqual => "=="
  | .looseNotEqual => "!="
  | .strictEqual => "==="
  | .strictNotEqual => "!=="
  | .and => "and"
  | .or => "or"

/-- The lexemes of operators.  That of a negation is among those between operands. -/
def operators : List String :=
  BinaryOperator.all.map binary ++ ["!", "toString", "toBool"]

/-- All heads. -/
def all : List Head :=
  [.group, .array, .object, .get, .assign, .set, .block, .branch, .choice, .declaration] ++
    operators.map operator

/-- The head with a text. -/
def ofText : String → Head
  | "group" => .group
  | "array" => .array
  | "object" => .object
  | "get" => .get
  | "=" => .assign
  | "set" => .set
  | "block" => .block
  | "if" => .branch
  | "if-do" => .choice
  | "let" => .declaration
  | lexeme => .operator lexeme

theorem ofText_text : ∀ head ∈ all, ofText head.text = head := by
  decide

/-- The characters that no part begins with and that do not close a bracket. -/
def isInside (c : Char) : Bool :=
  c != ' ' && c != '.' && c != '[' && c != ')'

theorem all_isInside : ∀ head ∈ all, head.text.toList.all isInside = true := by
  decide

/-- Where a head ends, and which one it is, the text shows. -/
theorem text_append_inj {head head' : Head} (known : head ∈ all) (known' : head' ∈ all)
    {rest rest' : List Char} (stops : Stops isInside rest) (stops' : Stops isInside rest')
    (same : head.text.toList ++ rest = head'.text.toList ++ rest') :
    head = head' ∧ rest = rest' := by
  rcases run_append_inj (List.all_eq_true.mp (all_isInside head known))
    (List.all_eq_true.mp (all_isInside head' known')) stops stops' same with ⟨texts, rests⟩
  rw [← ofText_text head known, ← ofText_text head' known', String.toList_inj.mp texts]
  exact ⟨rfl, rests⟩

theorem operator_mem_all {lexeme : String} (isOperator : lexeme ∈ operators) :
    operator lexeme ∈ all :=
  List.mem_append_right _ (List.mem_map_of_mem isOperator)

end Head

/-! ## Brackets -/

mutual

/-- A word, or a bracket with a head and parts. -/
inductive Tree where
  | word (word : Word)
  | bracket (head : Head) (parts : List Part)

/-- A part of a bracket. -/
inductive Part where
  /-- A tree behind a space. -/
  | spaced (tree : Tree)
  /-- A name behind a space, and a tree behind a colon. -/
  | named (name : String) (value : Tree)
  /-- A name behind a dot. -/
  | field (name : String)
  /-- A tree in square brackets. -/
  | element (index : Tree)

end

mutual

@[simp]
def Tree.text : Tree → List Char
  | .word word => word.text
  | .bracket head parts => '(' :: (head.text.toList ++ (textOfParts parts ++ [')']))

@[simp]
def Part.text : Part → List Char
  | .spaced tree => ' ' :: tree.text
  | .named name value => ' ' :: (name.toList ++ ':' :: value.text)
  | .field name => '.' :: name.toList
  | .element index => '[' :: (index.text ++ [']'])

@[simp]
def textOfParts : List Part → List Char
  | [] => []
  | part :: parts => part.text ++ textOfParts parts

end

mutual

/-- All words, names and heads of a tree are valid. -/
def Tree.Valid : Tree → Prop
  | .word word => word.Valid
  | .bracket head parts => head ∈ Head.all ∧ ValidParts parts

def Part.Valid : Part → Prop
  | .spaced tree => tree.Valid
  | .named name value => (Word.name name).Valid ∧ value.Valid
  | .field name => (Word.name name).Valid
  | .element index => index.Valid

def ValidParts : List Part → Prop
  | [] => True
  | part :: parts => part.Valid ∧ ValidParts parts

end

/-! ### Where parts begin -/

/-- A word does not begin as a bracket does. -/
theorem Word.text_append_ne {word : Word} (valid : word.Valid) {rest behind : List Char} :
    word.text ++ rest ≠ '(' :: behind := by
  rcases exists_first valid with ⟨c, others, isText, first⟩
  rw [isText, List.cons_append]
  intro same
  rw [(List.cons.inj same).1] at first
  cases word <;> contradiction

theorem exists_cons_of_name {name : String} (valid : (Word.name name).Valid) :
    ∃ c rest, name.toList = c :: rest ∧ startsName c = true :=
  Word.exists_first valid

theorem stops_textOfParts (parts : List Part) (rest : List Char) :
    Stops Head.isInside (textOfParts parts ++ ')' :: rest) := by
  cases parts with
  | nil => exact stops_cons.mpr rfl
  | cons part parts => cases part <;> exact stops_cons.mpr rfl

/-- What stands behind a part may stand behind a word. -/
theorem ends_textOfParts {parts : List Part} (valid : ValidParts parts) (rest : List Char) :
    Ends (textOfParts parts ++ ')' :: rest) := by
  cases parts with
  | nil => exact .inr (.inl rfl)
  | cons part parts =>
      cases part with
      | spaced | named => exact .inl rfl
      | field name =>
          rcases exists_cons_of_name valid.1 with ⟨c, others, isText, starts⟩
          refine .inr (.inr (.inr (.inr ⟨rfl, ?_⟩)))
          simp [isText, starts]
      | element => exact .inr (.inr (.inl rfl))

/-- A name with a colon behind it is not the beginning of a tree. -/
theorem Tree.text_append_ne {tree : Tree} (valid : tree.Valid) {name : String}
    (validName : (Word.name name).Valid) {rest behind : List Char} (ends : Ends rest) :
    tree.text ++ rest ≠ name.toList ++ ':' :: behind := by
  intro same
  rcases exists_cons_of_name validName with ⟨c, others, isText, starts⟩
  cases tree with
  | bracket head parts =>
      rw [isText, Tree.text, List.cons_append, List.cons_append, List.cons.injEq] at same
      rw [← same.1] at starts
      contradiction
  | word word =>
      rcases Word.exists_first valid with ⟨d, _, isWord, first⟩
      have firsts : d = c := by
        rw [isText, Tree.text, isWord, List.cons_append, List.cons_append] at same
        exact (List.cons.inj same).1
      subst firsts
      have starts' : (Word.name name).beginsWith d = true := starts
      rcases Word.cases_of_beginsWith first starts' with
        ⟨lexeme, _, rfl, -⟩ | ⟨_, _, -, _⟩ | ⟨_, _, -, _⟩
      · have stops : Stops isName (':' :: behind) := stops_cons.mpr rfl
        rcases name_text_append_inj valid validName ends.stops stops same with ⟨-, rfl⟩
        exact not_ends_colon ends
      · contradiction
      · contradiction

/-! ### Unique reading -/

mutual

/-- Where a tree ends, and which one it is, the text shows. -/
theorem Tree.text_append_inj : ∀ (tree tree' : Tree), tree.Valid → tree'.Valid →
    ∀ {rest rest' : List Char}, Ends rest → Ends rest' → tree.text ++ rest = tree'.text ++ rest' →
      tree = tree' ∧ rest = rest'
  | .word word, .word word', valid, valid', _, _, ends, ends', same =>
      (Word.text_append_inj valid valid' ends ends' same).imp_left (congrArg Tree.word)
  | .word word, .bracket head parts, valid, _, _, _, _, _, same =>
      absurd same (Word.text_append_ne valid)
  | .bracket head parts, .word word, _, valid, _, _, _, _, same =>
      absurd same.symm (Word.text_append_ne valid)
  | .bracket head parts, .bracket head' parts', valid, valid', _, _, _, _, same => by
      simp only [Tree.text, List.cons_append, List.append_assoc, List.cons.injEq, true_and,
        List.nil_append] at same
      rcases Head.text_append_inj valid.1 valid'.1 (stops_textOfParts _ _) (stops_textOfParts _ _)
        same with ⟨heads, behind⟩
      rcases parts_append_inj parts parts' valid.2 valid'.2 behind with ⟨all, rests⟩
      rw [heads, all]
      exact ⟨rfl, rests⟩

theorem Part.text_append_inj : ∀ (part part' : Part), part.Valid → part'.Valid →
    ∀ {rest rest' : List Char}, Ends rest → Ends rest' → part.text ++ rest = part'.text ++ rest' →
      part = part' ∧ rest = rest'
  | .spaced tree, part', valid, valid', rest, rest', ends, ends', same => by
      cases part' with
      | spaced tree' =>
          have inside := (List.cons.inj same).2
          exact (tree.text_append_inj tree' valid valid' ends ends' inside).imp_left
            (congrArg Part.spaced)
      | named name value =>
          simp only [Part.text, List.cons_append, List.append_assoc, List.cons.injEq,
            true_and] at same
          exact absurd same (tree.text_append_ne valid valid'.1 ends)
      | field | element => simp at same
  | .named name value, part', valid, valid', rest, rest', ends, ends', same => by
      cases part' with
      | spaced tree =>
          simp only [Part.text, List.cons_append, List.append_assoc, List.cons.injEq,
            true_and] at same
          exact absurd same.symm (tree.text_append_ne valid' valid.1 ends')
      | named name' value' =>
          simp only [Part.text, List.cons_append, List.append_assoc, List.cons.injEq,
            true_and] at same
          rcases name_text_append_inj valid.1 valid'.1 (stops_cons.mpr rfl) (stops_cons.mpr rfl)
            same with ⟨names, behind⟩
          rcases value.text_append_inj value' valid.2 valid'.2 ends ends' (List.cons.inj behind).2
            with ⟨values, rests⟩
          rw [String.toList_inj.mp names, values]
          exact ⟨rfl, rests⟩
      | field | element => simp at same
  | .field name, part', valid, valid', rest, rest', ends, ends', same => by
      cases part' with
      | field name' =>
          have inside := (List.cons.inj same).2
          exact (Word.name_append_inj valid valid' ends ends' inside).imp_left
            (congrArg Part.field)
      | spaced | named | element => simp at same
  | .element index, part', valid, valid', rest, rest', ends, ends', same => by
      cases part' with
      | element index' =>
          simp only [Part.text, List.cons_append, List.append_assoc, List.cons.injEq, true_and,
            List.nil_append] at same
          have closing : ∀ rest, Ends (']' :: rest) := fun _ => by simp [Ends]
          rcases index.text_append_inj index' valid valid' (closing _) (closing _) same with
            ⟨indices, behind⟩
          rw [indices]
          exact ⟨rfl, (List.cons.inj behind).2⟩
      | spaced | named | field => simp at same

theorem parts_append_inj : ∀ (parts parts' : List Part), ValidParts parts → ValidParts parts' →
    ∀ {rest rest' : List Char},
      textOfParts parts ++ ')' :: rest = textOfParts parts' ++ ')' :: rest' →
        parts = parts' ∧ rest = rest'
  | [], [], _, _, _, _, same => ⟨rfl, (List.cons.inj same).2⟩
  | [], part :: parts, _, _, _, _, same => by
      cases part <;> simp at same
  | part :: parts, [], _, _, _, _, same => by
      cases part <;> simp at same
  | part :: parts, part' :: parts', valid, valid', rest, rest', same => by
      rw [textOfParts, textOfParts, List.append_assoc, List.append_assoc] at same
      rcases part.text_append_inj part' valid.1 valid'.1 (ends_textOfParts valid.2 _)
        (ends_textOfParts valid'.2 _) same with ⟨firsts, behind⟩
      rcases parts_append_inj parts parts' valid.2 valid'.2 behind with ⟨others, rests⟩
      rw [firsts, others]
      exact ⟨rfl, rests⟩

end

end Descriptor.Shown
