import Descriptor.Proofs.Grammar.Writing.Statement

/-!
# Writing programs

A canonical program that is no deeper than allowed can be written out and read back.  It is
written symbol by symbol, with a separator behind each statement that needs an end and nothing in
the gaps.
-/

namespace Descriptor

/-! ## Symbols as tokens -/

/-- The kind of the tokens that a symbol can stand for. -/
def Symbol.kind : Symbol → Kind
  | .exact token => token.kind
  | .sort kind => kind
  | .closing sign => .sign sign

/-- A token that a symbol can stand for. -/
def Symbol.token : Symbol → Token
  | .exact token => token
  | .sort kind => ⟨kind, "", 1⟩
  | .closing sign => ⟨.sign sign, "", 1⟩

@[simp]
theorem Symbol.token_exact (token : Token) : (Symbol.exact token).token = token :=
  rfl

@[simp]
theorem Symbol.token_kind (symbol : Symbol) : symbol.token.kind = symbol.kind := by
  cases symbol <;> rfl

/-- The tokens of symbols. -/
def write (symbols : List Symbol) : List Token :=
  symbols.map Symbol.token

@[simp]
theorem write_nil : write [] = [] :=
  rfl

@[simp]
theorem write_cons (symbol : Symbol) (symbols : List Symbol) :
    write (symbol :: symbols) = symbol.token :: write symbols :=
  rfl

@[simp]
theorem write_append (symbols more : List Symbol) :
    write (symbols ++ more) = write symbols ++ write more :=
  List.map_append

/-- The statements of a program with one separator behind each that needs an end. -/
def writeProgram (program : List Stmt) : List Token :=
  write (spellBody [.sort .separator] program)

/-! ## The symbols write their tree -/

/-- Items whose symbols write them are written by the symbols of their list, up to the sign that
closes it. -/
theorem exists_items_write {α : Type} {Item : α → List Token → Prop} {spell : α → List Symbol}
    (close : Sign) {list : List α} (each : ∀ a ∈ list, Item a (write (spell a))) :
    ∃ used closing, write (spellItems close (list.map spell)) = used ++ [closing] ∧
      closing.kind = .sign close ∧ Items Item list used := by
  induction list with
  | nil => exact ⟨[], _, rfl, rfl, .nil⟩
  | cons a list ih =>
      rcases List.forall_mem_cons.mp each with ⟨item, others⟩
      rcases ih others with ⟨used, closing, same, closes, items⟩
      cases list with
      | nil =>
          refine ⟨write (spell a) ++ [], Symbol.token (.closing close), ?_, rfl,
            .last item (List.forall_mem_nil _)⟩
          simp [spellItems]
      | cons next list =>
          refine ⟨write (spell a) ++ ([] ++ Symbol.token (.sort (.sign .comma)) :: ([] ++ used)),
            closing, ?_, closes,
            .more item (List.forall_mem_nil _) rfl (List.forall_mem_nil _) items⟩
          simpa [spellItems] using same

mutual

/-- The symbols of an expression write it. -/
theorem Expr.written_spell : ∀ expression : Expr, expression.Written (write expression.spell)
  | .literal value => .literal (by cases value with | bool value => cases value <;> rfl | _ => rfl)
  | .variable name => .variable name
  | .group inner => by
      simpa [Expr.spell] using Expr.Written.group rfl inner.written_spell rfl
  | .array elements => by
      obtain ⟨used, closing, same, closes, items⟩ :=
        exists_items_write .rightBracket (written_spellElements elements)
      rw [Expr.spell, spellElements_eq_map, write_cons, same]
      exact .array rfl (List.forall_mem_nil _) items closes
  | .object properties => by
      obtain ⟨used, closing, same, closes, items⟩ :=
        exists_items_write .rightBrace (written_spellProperties properties)
      rw [Expr.spell, spellProperties_eq_map, write_cons, write_cons, same]
      exact .object rfl rfl (List.forall_mem_nil _) items closes
  | .unary _ _ right => .unary right.written_spell
  | .binary left _ _ right => by
      simpa [Expr.spell] using Expr.Written.binary left.written_spell right.written_spell
  | .get object accessor => by
      simpa [Expr.spell] using Expr.Written.get object.written_spell accessor.written_spell
  | .assign _ value => .assign rfl value.written_spell
  | .set object accessor value => by
      simpa [Expr.spell] using Expr.Written.set object.written_spell accessor.written_spell rfl
        value.written_spell

/-- The symbols of an access step write it. -/
theorem Accessor.written_spell : ∀ accessor : Accessor, accessor.Written (write accessor.spell)
  | .field _ => .field rfl
  | .element _ index => by
      simpa [Accessor.spell] using Accessor.Written.element index.written_spell rfl

/-- The symbols of array elements write them. -/
theorem written_spellElements :
    ∀ elements : List Expr, ∀ element ∈ elements, element.Written (write element.spell)
  | [] => List.forall_mem_nil _
  | element :: elements =>
      List.forall_mem_cons.mpr ⟨element.written_spell, written_spellElements elements⟩

/-- The symbols of object properties write them. -/
theorem written_spellProperties :
    ∀ properties : List (Token × Expr), ∀ property ∈ properties,
      PropertyWritten property
        (write (.exact property.1 :: .sort (.sign .colon) :: property.2.spell))
  | [] => List.forall_mem_nil _
  | (_, value) :: properties =>
      List.forall_mem_cons.mpr
        ⟨.property rfl value.written_spell, written_spellProperties properties⟩

end

mutual

/-- The symbols of a statement write it, whatever stands behind. -/
theorem Stmt.written_spell {Gap : List Token → Prop} (empty : Gap []) :
    ∀ (statement : Stmt) (behind : List Token),
      statement.Written Gap (write (statement.spell [.sort .separator])) behind
  | .block body, behind => by
      simpa [Stmt.spell] using Stmt.Written.block rfl (bodyWritten_spell empty body _) rfl
  | .expression expression, behind => by
      simpa [Stmt.spell] using Stmt.Written.expression expression.written_spell (.separator rfl)
  | .branch condition positive none, behind => by
      simpa [Stmt.spell] using Stmt.Written.branch rfl rfl condition.written_spell rfl
        (List.forall_mem_nil _) (positive.written_spell empty behind)
  | .branch condition positive (some negative), behind => by
      simpa [Stmt.spell] using Stmt.Written.branchElse rfl rfl condition.written_spell rfl
        (List.forall_mem_nil _) (positive.written_spell empty _) (List.forall_mem_nil _) rfl
        (List.forall_mem_nil _) (negative.written_spell empty behind)
  | .choice condition positive none, behind => by
      simpa [Stmt.spell] using Stmt.Written.choice rfl condition.written_spell rfl rfl rfl
        positive.written_spell (.separator rfl)
  | .choice condition positive (some negative), behind => by
      simpa [Stmt.spell] using Stmt.Written.choiceElse rfl condition.written_spell rfl rfl rfl
        positive.written_spell rfl rfl rfl negative.written_spell (.separator rfl)
  | .declaration _ none, behind => .declaration rfl (.separator rfl)
  | .declaration _ (some initializer), behind => by
      simpa [Stmt.spell] using Stmt.Written.initialized rfl rfl initializer.written_spell
        (.separator rfl)

/-- The symbols of statements write them, whatever stands behind. -/
theorem bodyWritten_spell {Gap : List Token → Prop} (empty : Gap []) :
    ∀ (body : List Stmt) (behind : List Token),
      BodyWritten Gap body (write (spellBody [.sort .separator] body)) behind
  | [], _ => .nil empty
  | statement :: body, behind => by
      simpa [spellBody] using BodyWritten.cons empty (statement.written_spell empty _)
        (bodyWritten_spell empty body behind)

end

/-! ## No end in between -/

/-- None of the symbols ends the text. -/
def NoEnd (symbols : List Symbol) : Prop :=
  ∀ symbol ∈ symbols, symbol.kind ≠ .endOfText

@[simp]
theorem noEnd_nil : NoEnd [] :=
  List.forall_mem_nil _

@[simp]
theorem noEnd_cons {symbol : Symbol} {symbols : List Symbol} :
    NoEnd (symbol :: symbols) ↔ symbol.kind ≠ .endOfText ∧ NoEnd symbols :=
  List.forall_mem_cons

@[simp]
theorem noEnd_append {symbols more : List Symbol} :
    NoEnd (symbols ++ more) ↔ NoEnd symbols ∧ NoEnd more :=
  List.forall_mem_append

theorem noEnd_spellItems (close : Sign) {items : List (List Symbol)}
    (each : ∀ item ∈ items, NoEnd item) : NoEnd (spellItems close items) := by
  fun_induction spellItems close items with
  | case1 => simp [Symbol.kind]
  | case2 item => simpa [Symbol.kind] using each
  | case3 item next items ih =>
      rcases List.forall_mem_cons.mp each with ⟨first, others⟩
      simp [Symbol.kind, first, ih others]

mutual

/-- A canonical expression spells no end. -/
theorem Expr.noEnd_spell : ∀ expression : Expr, expression.Canonical → NoEnd expression.spell
  | .literal value, _ => by
      cases value with
      | bool value => cases value <;> simp [Expr.spell, Literal.kind, Symbol.kind]
      | _ => simp [Expr.spell, Literal.kind, Symbol.kind]
  | .variable name, canonical => by
      have isName : name.kind = .identifier := canonical
      simp [Expr.spell, Symbol.kind, isName]
  | .group inner, canonical => by
      have inside := inner.noEnd_spell canonical
      simp [Expr.spell, Symbol.kind, inside]
  | .array elements, canonical => by
      have items := noEnd_spellItems .rightBracket (noEnd_spellElements elements canonical)
      simp [Expr.spell, Symbol.kind, items]
  | .object properties, canonical => by
      have items := noEnd_spellItems .rightBrace (noEnd_spellProperties properties canonical)
      simp [Expr.spell, Symbol.kind, items]
  | .unary _ token right, ⟨isOperator, _, canonical⟩ => by
      have operand := right.noEnd_spell canonical
      have notEnd : token.kind ≠ .endOfText := by
        intro same
        rw [same] at isOperator
        contradiction
      simp [Expr.spell, Symbol.kind, notEnd, operand]
  | .binary left _ token right, ⟨isOperator, _, _, leftCanonical, rightCanonical⟩ => by
      have leftOperand := left.noEnd_spell leftCanonical
      have rightOperand := right.noEnd_spell rightCanonical
      have notEnd : token.kind ≠ .endOfText := by
        intro same
        rw [same] at isOperator
        contradiction
      simp [Expr.spell, Symbol.kind, leftOperand, notEnd, rightOperand]
  | .get object accessor, ⟨_, canonical, stepCanonical⟩ => by
      have holder := object.noEnd_spell canonical
      have step := accessor.noEnd_spell stepCanonical
      simp [Expr.spell, holder, step]
  | .assign target value, ⟨isName, canonical⟩ => by
      have written := value.noEnd_spell canonical
      simp [Expr.spell, Symbol.kind, isName, written]
  | .set object accessor value, ⟨_, canonical, stepCanonical, valueCanonical⟩ => by
      have holder := object.noEnd_spell canonical
      have step := accessor.noEnd_spell stepCanonical
      have written := value.noEnd_spell valueCanonical
      simp [Expr.spell, Symbol.kind, holder, step, written]

/-- A canonical access step spells no end. -/
theorem Accessor.noEnd_spell :
    ∀ accessor : Accessor, accessor.Canonical → NoEnd accessor.spell
  | .field name, canonical => by
      have isName : name.kind = .identifier := canonical
      simp [Accessor.spell, Symbol.kind, isName]
  | .element bracket index, canonical => by
      have inside := index.noEnd_spell canonical.2
      simp [Accessor.spell, Symbol.kind, canonical.1, inside]

/-- Canonical array elements spell no end. -/
theorem noEnd_spellElements :
    ∀ elements : List Expr, CanonicalElements elements →
      ∀ item ∈ spellElements elements, NoEnd item
  | [], _ => List.forall_mem_nil _
  | element :: elements, canonical =>
      List.forall_mem_cons.mpr
        ⟨element.noEnd_spell canonical.1, noEnd_spellElements elements canonical.2⟩

/-- Canonical object properties spell no end. -/
theorem noEnd_spellProperties :
    ∀ properties : List (Token × Expr), CanonicalProperties properties →
      ∀ item ∈ spellProperties properties, NoEnd item
  | [], _ => List.forall_mem_nil _
  | (name, value) :: properties, ⟨isName, canonical, others⟩ => by
      have inside := value.noEnd_spell canonical
      refine List.forall_mem_cons.mpr ⟨?_, noEnd_spellProperties properties others⟩
      simp [Symbol.kind, isName, inside]

end

mutual

/-- A canonical statement spells no end. -/
theorem Stmt.noEnd_spell :
    ∀ statement : Stmt, statement.Canonical → NoEnd (statement.spell [.sort .separator])
  | .block body, canonical => by
      have inside := noEnd_spellBody body canonical
      simp [Stmt.spell, Symbol.kind, inside]
  | .expression expression, canonical => by
      have value := expression.noEnd_spell canonical
      simp [Stmt.spell, Symbol.kind, value]
  | .branch condition positive none, ⟨conditionCanonical, canonical, _⟩ => by
      have test := condition.noEnd_spell conditionCanonical
      have first := positive.noEnd_spell canonical
      simp [Stmt.spell, Symbol.kind, test, first]
  | .branch condition positive (some negative),
      ⟨conditionCanonical, canonical, _, _, negativeCanonical, _⟩ => by
      have test := condition.noEnd_spell conditionCanonical
      have first := positive.noEnd_spell canonical
      have second := negative.noEnd_spell negativeCanonical
      simp [Stmt.spell, Symbol.kind, test, first, second]
  | .choice condition positive none, ⟨_, conditionCanonical, canonical⟩ => by
      have test := condition.noEnd_spell conditionCanonical
      have first := positive.noEnd_spell canonical
      simp [Stmt.spell, Symbol.kind, test, first]
  | .choice condition positive (some negative),
      ⟨_, conditionCanonical, canonical, negativeCanonical⟩ => by
      have test := condition.noEnd_spell conditionCanonical
      have first := positive.noEnd_spell canonical
      have second := negative.noEnd_spell negativeCanonical
      simp [Stmt.spell, Symbol.kind, test, first, second]
  | .declaration name none, canonical => by
      have isName : name.kind = .identifier := canonical
      simp [Stmt.spell, Symbol.kind, isName]
  | .declaration name (some initializer), ⟨isName, canonical⟩ => by
      have value := initializer.noEnd_spell canonical
      simp [Stmt.spell, Symbol.kind, isName, value]

/-- Canonical statements spell no end. -/
theorem noEnd_spellBody :
    ∀ body : List Stmt, CanonicalBody body → NoEnd (spellBody [.sort .separator] body)
  | [], _ => noEnd_nil
  | statement :: body, ⟨canonical, others⟩ =>
      noEnd_append.mpr ⟨statement.noEnd_spell canonical, noEnd_spellBody body others⟩

end

/-- All tokens of a canonical program are read. -/
theorem readTokens_writeProgram {program : List Stmt} (canonical : CanonicalBody program) :
    readTokens (writeProgram program) = writeProgram program := by
  apply List.takeWhile_eq_self_iff.mpr
  intro token member
  rcases List.mem_map.mp member with ⟨symbol, isSymbol, rfl⟩
  simpa [Token.isEnd] using noEnd_spellBody program canonical symbol isSymbol

/-- The parser is complete.  A canonical program that is no deeper than allowed is read from its
tokens without an error, with one separator behind each statement that needs an end or with any
separators, last commas and left out separators that the forms of its statements admit. -/
theorem parse_writeProgram (program : List Stmt) (canonical : CanonicalBody program)
    (depth : depthOfBody program ≤ nestingLimit) :
    parse (writeProgram program) = (program, []) ∧
      ∀ tokens, BodyWritten Separators program (readTokens tokens) [] →
        parse tokens = (program, []) := by
  constructor
  · apply parse_eq_iff.mpr
    rw [readTokens_writeProgram canonical]
    exact ⟨bodyWritten_spell (List.forall_mem_nil _) program [], canonical, depth⟩
  · intro tokens written
    exact parse_eq_iff.mpr ⟨written, canonical, depth⟩

/-- `let a = -a + a`, and behind it `if (a or a) { a[a] = %{a: [a]} } else if a, do: a`. -/
def branchingProgram : List Stmt :=
  let name : Token := ⟨.identifier, "a", 1⟩
  let negated := Expr.unary .negate ⟨.sign .minus, "-", 1⟩ (.variable name)
  let sum := Expr.binary negated .add ⟨.sign .plus, "+", 1⟩ (.variable name)
  let either := Expr.binary (.variable name) .or ⟨.keyword .or, "or", 2⟩ (.variable name)
  let place := Accessor.element ⟨.sign .leftBracket, "[", 2⟩ (.variable name)
  let entry := Expr.set (.variable name) place (.object [(name, .array [.variable name])])
  [.declaration name (some sum),
    .branch either (.block [.expression entry])
      (some (.choice (.variable name) (.variable name) none))]

theorem parse_writeProgram_branching :
    CanonicalBody branchingProgram ∧ depthOfBody branchingProgram ≤ nestingLimit ∧
      parse (writeProgram branchingProgram) = (branchingProgram, []) := by
  have canonical : CanonicalBody branchingProgram := by
    simp [branchingProgram, CanonicalBody, Stmt.Canonical, Expr.Canonical, Accessor.Canonical,
      CanonicalElements, CanonicalProperties, UnaryOperator.ofKind?, BinaryOperator.ofKind?,
      Expr.rank, BinaryOperator.level, Level.rank, unaryRank, accessRank, Expr.opensParenthesis,
      Stmt.isDeclaration, Stmt.takesElse]
  have depth : depthOfBody branchingProgram ≤ nestingLimit := by decide
  exact ⟨canonical, depth, (parse_writeProgram branchingProgram canonical depth).1⟩

end Descriptor
