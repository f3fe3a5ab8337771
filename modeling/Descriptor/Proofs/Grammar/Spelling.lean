import Descriptor.Proofs.Grammar.Written
import Mathlib.Data.List.Forall2

/-!
# The tokens that a tree spells

A tree spells one symbol for each token it was made from: the token itself where the tree keeps it,
and otherwise the kind that the token must have had.  Tokens that write a tree spell its symbols,
and all that they hold besides is what may stand in gaps, and commas behind last items.
-/

namespace Descriptor

/-- What a tree says about one of its tokens. -/
inductive Symbol where
  /-- The token itself. -/
  | exact (token : Token)
  /-- Only its kind. -/
  | sort (kind : Kind)
  /-- The sign that closes a list with at least one item. -/
  | closing (sign : Sign)

/-- A token that a symbol can stand for. -/
def Symbol.Fits : Symbol → Token → Prop
  | .exact token, other => other = token
  | .sort kind, other => other.kind = kind
  | .closing sign, other => other.kind = .sign sign

/-- The kind of the tokens that a literal is made from. -/
def Literal.kind : Literal → Kind
  | .number value => .number value
  | .string text => .string text
  | .bool true => .keyword .true
  | .bool false => .keyword .false
  | .null => .keyword .null
  | .undefined => .keyword .undefined

/-- Spelled items with commas between them and the sign that closes their list. -/
def spellItems (close : Sign) : List (List Symbol) → List Symbol
  | [] => [.sort (.sign close)]
  | [item] => item ++ [.closing close]
  | item :: next :: items =>
      item ++ .sort (.sign .comma) :: spellItems close (next :: items)

mutual

/-- The symbols of an expression, in order. -/
def Expr.spell : Expr → List Symbol
  | .literal value => [.sort value.kind]
  | .variable name => [.exact name]
  | .group inner => .sort (.sign .leftParen) :: (inner.spell ++ [.sort (.sign .rightParen)])
  | .array elements =>
      .sort (.sign .leftBracket) :: spellItems .rightBracket (spellElements elements)
  | .object properties =>
      .sort (.sign .percent) :: .sort (.sign .leftBrace) ::
        spellItems .rightBrace (spellProperties properties)
  | .unary _ token right => .exact token :: right.spell
  | .binary left _ token right => left.spell ++ .exact token :: right.spell
  | .get object accessor => object.spell ++ accessor.spell
  | .assign target value => .exact target :: .sort (.sign .equal) :: value.spell
  | .set object accessor value =>
      object.spell ++ (accessor.spell ++ .sort (.sign .equal) :: value.spell)

/-- The symbols of an access step. -/
def Accessor.spell : Accessor → List Symbol
  | .field name => [.sort (.sign .dot), .exact name]
  | .element bracket index => .exact bracket :: (index.spell ++ [.sort (.sign .rightBracket)])

/-- The symbols of each array element. -/
def spellElements : List Expr → List (List Symbol)
  | [] => []
  | element :: elements => element.spell :: spellElements elements

/-- The symbols of each object property. -/
def spellProperties : List (Token × Expr) → List (List Symbol)
  | [] => []
  | (name, value) :: properties =>
      (.exact name :: .sort (.sign .colon) :: value.spell) :: spellProperties properties

end

mutual

/-- The symbols of a statement, in order, with `terminator` where a separator may stand. -/
def Stmt.spell (terminator : List Symbol) : Stmt → List Symbol
  | .block body =>
      .sort (.sign .leftBrace) :: (spellBody terminator body ++ [.sort (.sign .rightBrace)])
  | .expression expression => expression.spell ++ terminator
  | .branch condition positive none =>
      .sort (.keyword .ifWord) :: .sort (.sign .leftParen) ::
        (condition.spell ++ .sort (.sign .rightParen) :: positive.spell terminator)
  | .branch condition positive (some negative) =>
      .sort (.keyword .ifWord) :: .sort (.sign .leftParen) ::
        (condition.spell ++ .sort (.sign .rightParen) :: (positive.spell terminator ++
          .sort (.keyword .elseWord) :: negative.spell terminator))
  | .choice condition positive none =>
      .sort (.keyword .ifWord) :: (condition.spell ++ .sort (.sign .comma) ::
        .sort (.keyword .doWord) :: .sort (.sign .colon) :: (positive.spell ++ terminator))
  | .choice condition positive (some negative) =>
      .sort (.keyword .ifWord) :: (condition.spell ++ .sort (.sign .comma) ::
        .sort (.keyword .doWord) :: .sort (.sign .colon) :: (positive.spell ++
          .sort (.sign .comma) :: .sort (.keyword .elseWord) :: .sort (.sign .colon) ::
            (negative.spell ++ terminator)))
  | .declaration name none => .sort (.keyword .letWord) :: .exact name :: terminator
  | .declaration name (some initializer) =>
      .sort (.keyword .letWord) :: .exact name :: .sort (.sign .equal) ::
        (initializer.spell ++ terminator)

/-- The symbols of the statements of a program or a block. -/
def spellBody (terminator : List Symbol) : List Stmt → List Symbol
  | [] => []
  | statement :: body => statement.spell terminator ++ spellBody terminator body

end

/-- The tokens spell the symbols in their order.  Besides the tokens of the symbols there may be
tokens to skip, and a comma with separators in front of a sign that closes some items. -/
inductive Spells (Skip : Token → Prop) : List Symbol → List Token → Prop where
  | nil : Spells Skip [] []
  | fit {symbol : Symbol} {token : Token} {symbols : List Symbol} {tokens : List Token}
      (fits : symbol.Fits token) (spells : Spells Skip symbols tokens) :
      Spells Skip (symbol :: symbols) (token :: tokens)
  | skip {token : Token} {symbols : List Symbol} {tokens : List Token} (skipped : Skip token)
      (spells : Spells Skip symbols tokens) : Spells Skip symbols (token :: tokens)
  | lastComma {sign : Sign} {comma close : Token} {symbols : List Symbol}
      {gap tokens : List Token} (isComma : comma.kind = .sign .comma)
      (separators : Separators gap) (closes : close.kind = .sign sign)
      (spells : Spells Skip symbols tokens) :
      Spells Skip (.closing sign :: symbols) (comma :: (gap ++ close :: tokens))

namespace Spells

variable {Skip : Token → Prop} {symbols moreSymbols : List Symbol} {tokens moreTokens : List Token}

theorem append (left : Spells Skip symbols tokens) (right : Spells Skip moreSymbols moreTokens) :
    Spells Skip (symbols ++ moreSymbols) (tokens ++ moreTokens) := by
  induction left with
  | nil => exact right
  | fit fits _ ih => exact .fit fits ih
  | skip skipped _ ih => exact .skip skipped ih
  | lastComma isComma separators closes _ ih =>
      simpa using lastComma isComma separators closes ih

theorem single {symbol : Symbol} {token : Token} (fits : symbol.Fits token) :
    Spells Skip [symbol] [token] :=
  .fit fits .nil

/-- Tokens to skip spell nothing. -/
theorem skipAll {gap : List Token} (skipped : ∀ token ∈ gap, Skip token)
    (spells : Spells Skip symbols tokens) : Spells Skip symbols (gap ++ tokens) := by
  induction gap with
  | nil => exact spells
  | cons token gap ih =>
      rw [List.forall_mem_cons] at skipped
      exact .skip skipped.1 (ih skipped.2)

/-- If anything can be skipped, the tokens of the symbols are among the tokens, in order. -/
theorem sublistForall₂ (spells : Spells Skip symbols tokens) :
    List.SublistForall₂ Symbol.Fits symbols tokens := by
  induction spells with
  | nil => exact .nil
  | fit fits _ ih => exact .cons fits ih
  | skip _ _ ih => exact .cons_right ih
  | @lastComma sign comma close symbols gap tokens _ _ closes _ ih =>
      have closed : List.SublistForall₂ Symbol.Fits (.closing sign :: symbols) (close :: tokens) :=
        .cons closes ih
      rw [List.sublistForall₂_iff] at closed ⊢
      rcases closed with ⟨fitting, fits, sublist⟩
      exact ⟨fitting, fits, (sublist.trans (List.sublist_append_right gap _)).cons comma⟩

end Spells

/-! ## Written trees are spelled -/

section Written

variable {Skip : Token → Prop} (separates : ∀ token : Token, token.isSeparator = true → Skip token)
include separates

theorem Separators.skipped {gap : List Token} (separators : Separators gap) :
    ∀ token ∈ gap, Skip token :=
  fun token member => separates token (separators token member)

theorem Terminated.spells {terminator behind : List Token}
    (terminated : Terminated terminator behind) : Spells Skip [] terminator := by
  cases terminated with
  | separator isSeparator => exact .skip (separates _ isSeparator) .nil
  | omitted _ => exact .nil

/-- The tokens of items and of the sign that closes them spell their list. -/
theorem Items.spells {α : Type} {Item : α → List Token → Prop} {spell : α → List Symbol}
    {list : List α} {used : List Token} {sign : Sign} {closing : Token}
    (items : Items Item list used)
    (each : ∀ a ∈ list, ∀ used, Item a used → Spells Skip (spell a) used)
    (closes : closing.kind = .sign sign) :
    Spells Skip (spellItems sign (list.map spell)) (used ++ [closing]) := by
  induction items with
  | nil => exact Spells.single closes
  | last item separators =>
      have spelled := each _ List.mem_cons_self _ item
      rw [List.append_assoc]
      exact spelled.append
        (Spells.skipAll (separators.skipped separates) (Spells.single closes))
  | @more a rest used gap behind others comma item separators isComma separatorsBehind items ih =>
      have spelled := each _ List.mem_cons_self _ item
      rw [List.append_assoc, List.append_assoc, List.cons_append, List.append_assoc]
      cases rest with
      | nil =>
          cases items with
          | nil =>
              apply spelled.append
              apply Spells.skipAll (separators.skipped separates)
              exact .lastComma isComma separatorsBehind closes .nil
      | cons next rest =>
          have later := ih fun a member => each a (List.mem_cons_of_mem _ member)
          apply spelled.append
          apply Spells.skipAll (separators.skipped separates)
          exact .fit isComma (Spells.skipAll (separatorsBehind.skipped separates) later)

omit separates in
theorem spellElements_eq_map (elements : List Expr) :
    spellElements elements = elements.map Expr.spell := by
  induction elements with
  | nil => rfl
  | cons element elements ih => simp [spellElements, ih]

omit separates in
theorem spellProperties_eq_map (properties : List (Token × Expr)) :
    spellProperties properties =
      properties.map fun property =>
        .exact property.1 :: .sort (.sign .colon) :: property.2.spell := by
  induction properties with
  | nil => rfl
  | cons property properties ih => simp [spellProperties, ih]

omit separates in
theorem Literal.kind_of_leaf? {value : Literal} {token : Token}
    (leaf : Expr.leaf? token = some (.literal value)) : token.kind = value.kind := by
  unfold Expr.leaf? at leaf
  split at leaf <;> cases leaf <;> assumption

end Written

mutual

/-- The tokens that write an expression spell it. -/
theorem Expr.spells_of_written {Skip : Token → Prop}
    (separates : ∀ token : Token, token.isSeparator = true → Skip token) :
    ∀ (expression : Expr) (used : List Token), expression.Written used →
      Spells Skip expression.spell used
  | .literal _, _, .literal leaf => Spells.single (Literal.kind_of_leaf? leaf)
  | .variable _, _, .variable _ => Spells.single rfl
  | .group inner, _, .group opens written closes =>
      .fit opens ((inner.spells_of_written separates _ written).append (Spells.single closes))
  | .array elements, _, .array opens separators items closes => by
      rw [Expr.spell, spellElements_eq_map]
      refine .fit opens ?_
      apply Spells.skipAll (separators.skipped separates)
      exact items.spells separates (spells_of_writtenElements separates elements) closes
  | .object properties, _, .object isPercent opens separators items closes => by
      rw [Expr.spell, spellProperties_eq_map]
      refine .fit isPercent (.fit opens ?_)
      apply Spells.skipAll (separators.skipped separates)
      exact items.spells separates (spells_of_writtenProperties separates properties) closes
  | .unary _ _ right, _, .unary written => .fit rfl (right.spells_of_written separates _ written)
  | .binary left _ _ right, _, .binary leftWritten rightWritten =>
      (left.spells_of_written separates _ leftWritten).append
        (.fit rfl (right.spells_of_written separates _ rightWritten))
  | .get object accessor, _, .get written stepWritten =>
      (object.spells_of_written separates _ written).append
        (accessor.spells_of_written separates _ stepWritten)
  | .assign _ value, _, .assign isEquals written =>
      .fit rfl (.fit isEquals (value.spells_of_written separates _ written))
  | .set object accessor value, _, .set written stepWritten isEquals valueWritten =>
      (object.spells_of_written separates _ written).append
        ((accessor.spells_of_written separates _ stepWritten).append
          (.fit isEquals (value.spells_of_written separates _ valueWritten)))

/-- The tokens that write an access step spell it. -/
theorem Accessor.spells_of_written {Skip : Token → Prop}
    (separates : ∀ token : Token, token.isSeparator = true → Skip token) :
    ∀ (accessor : Accessor) (used : List Token), accessor.Written used →
      Spells Skip accessor.spell used
  | .field _, _, .field isDot => .fit isDot (Spells.single rfl)
  | .element _ index, _, .element written closes =>
      .fit rfl ((index.spells_of_written separates _ written).append (Spells.single closes))

/-- The tokens that write array elements spell them. -/
theorem spells_of_writtenElements {Skip : Token → Prop}
    (separates : ∀ token : Token, token.isSeparator = true → Skip token) :
    ∀ elements : List Expr, ∀ element ∈ elements, ∀ used, element.Written used →
      Spells Skip element.spell used
  | [] => by simp
  | element :: elements =>
      List.forall_mem_cons.mpr
        ⟨element.spells_of_written separates, spells_of_writtenElements separates elements⟩

/-- The tokens that write object properties spell them. -/
theorem spells_of_writtenProperties {Skip : Token → Prop}
    (separates : ∀ token : Token, token.isSeparator = true → Skip token) :
    ∀ properties : List (Token × Expr), ∀ property ∈ properties, ∀ used,
      PropertyWritten property used →
        Spells Skip (.exact property.1 :: .sort (.sign .colon) :: property.2.spell) used
  | [] => by simp
  | (_, value) :: properties =>
      List.forall_mem_cons.mpr
        ⟨fun _ (.property isColon written) =>
          .fit rfl (.fit isColon (value.spells_of_written separates _ written)),
          spells_of_writtenProperties separates properties⟩

end

section Statements

variable {Skip : Token → Prop} {Gap : List Token → Prop}

mutual

/-- The tokens that write a statement spell it, if its gaps can be skipped. -/
theorem Stmt.spells_of_written
    (separates : ∀ token : Token, token.isSeparator = true → Skip token)
    (skipped : ∀ gap, Gap gap → ∀ token ∈ gap, Skip token) :
    ∀ (statement : Stmt) (used behind : List Token), statement.Written Gap used behind →
      Spells Skip (statement.spell []) used
  | .block body, _, _, .block opens written closes =>
      .fit opens ((spells_of_bodyWritten separates skipped body _ _ written).append
        (Spells.single closes))
  | .expression expression, _, _, .expression written terminated =>
      (expression.spells_of_written separates _ written).append (terminated.spells separates)
  | .branch condition positive none, _, _, .branch isIf opens conditionWritten closes gap written =>
      .fit isIf (.fit opens ((condition.spells_of_written separates _ conditionWritten).append
        (.fit closes (Spells.skipAll (gap.skipped separates)
          (positive.spells_of_written separates skipped _ _ written)))))
  | .branch condition positive (some negative), _, _,
      .branchElse isIf opens conditionWritten closes gap written before isElse after
        negativeWritten =>
      .fit isIf (.fit opens ((condition.spells_of_written separates _ conditionWritten).append
        (.fit closes (Spells.skipAll (gap.skipped separates)
          ((positive.spells_of_written separates skipped _ _ written).append
            (Spells.skipAll (before.skipped separates) (.fit isElse
              (Spells.skipAll (after.skipped separates)
                (negative.spells_of_written separates skipped _ _ negativeWritten)))))))))
  | .choice condition positive none, _, _,
      .choice isIf conditionWritten isComma isDo isColon written terminated =>
      .fit isIf ((condition.spells_of_written separates _ conditionWritten).append
        (.fit isComma (.fit isDo (.fit isColon
          ((positive.spells_of_written separates _ written).append
            (terminated.spells separates))))))
  | .choice condition positive (some negative), _, _,
      .choiceElse isIf conditionWritten isComma isDo isColon written isSecondComma isElse
        isSecondColon negativeWritten terminated =>
      .fit isIf ((condition.spells_of_written separates _ conditionWritten).append
        (.fit isComma (.fit isDo (.fit isColon
          ((positive.spells_of_written separates _ written).append
            (.fit isSecondComma (.fit isElse (.fit isSecondColon
              ((negative.spells_of_written separates _ negativeWritten).append
                (terminated.spells separates))))))))))
  | .declaration _ none, _, _, .declaration isLet terminated =>
      .fit isLet (.fit rfl (terminated.spells separates))
  | .declaration _ (some initializer), _, _, .initialized isLet isEquals written terminated =>
      .fit isLet (.fit rfl (.fit isEquals
        ((initializer.spells_of_written separates _ written).append
          (terminated.spells separates))))

/-- The tokens that write statements spell them, if the gaps can be skipped. -/
theorem spells_of_bodyWritten
    (separates : ∀ token : Token, token.isSeparator = true → Skip token)
    (skipped : ∀ gap, Gap gap → ∀ token ∈ gap, Skip token) :
    ∀ (body : List Stmt) (used behind : List Token), BodyWritten Gap body used behind →
      Spells Skip (spellBody [] body) used
  | [], used, _, .nil between => by
      simpa [spellBody] using Spells.skipAll (skipped used between) .nil
  | statement :: body, _, _, .cons between written bodyWritten =>
      Spells.skipAll (skipped _ between)
        ((statement.spells_of_written separates skipped _ _ written).append
          (spells_of_bodyWritten separates skipped body _ _ bodyWritten))

end

end Statements

end Descriptor
