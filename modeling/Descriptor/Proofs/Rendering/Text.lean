import Descriptor.Proofs.Grammar.Written
import Descriptor.Proofs.Scanning.Cut

/-!
# Texts that are cut into the tokens of an expression

A text is put together from texts whose tokens are known, and each of them has to be known only in
front of what can stand behind it: a comma, a closing bracket or the end.  Items that read back one
by one do so with commas between them, `readsBack_intercalate`.
-/

namespace Descriptor

open Piece

/-! ## Cutting a text part by part -/

/-- In front of `rest` the text, which begins on `line`, is cut into the tokens without a fault.
None of them ends the text. -/
structure ScansTo (text : List Char) (line : Nat) (used : List Token) (rest : List Char) :
    Prop where
  tokens : tokensFrom line (pieces (text ++ rest)) =
    used ++ tokensFrom (line + text.count '\n') (pieces rest)
  errors : errorsFrom line (pieces (text ++ rest)) =
    errorsFrom (line + text.count '\n') (pieces rest)
  noEnd : ∀ token ∈ used, token.isEnd = false

section ScansTo

variable {text more : List Char} {line : Nat} {used others : List Token} {rest : List Char}

theorem scansTo_nil : ScansTo [] line [] rest :=
  ⟨rfl, rfl, List.forall_mem_nil _⟩

theorem ScansTo.append (first : ScansTo text line used (more ++ rest))
    (second : ScansTo more (line + text.count '\n') others rest) :
    ScansTo (text ++ more) line (used ++ others) rest where
  tokens := by
    rw [List.append_assoc, first.tokens, second.tokens, List.count_append, Nat.add_assoc,
      List.append_assoc]
  errors := by
    rw [List.append_assoc, first.errors, second.errors, List.count_append, Nat.add_assoc]
  noEnd := List.forall_mem_append.mpr ⟨first.noEnd, second.noEnd⟩

/-- A piece without a fault is cut from its text. -/
theorem scansTo_lexeme {piece : Piece} (cut : Cut piece rest) (line : Nat)
    (noError : piece.error? line = none)
    (noEnd : ∀ token ∈ (piece.token? line).toList, token.isEnd = false) :
    ScansTo piece.lexeme line (piece.token? line).toList rest where
  tokens := by
    rw [cut.pieces_eq, tokensFrom]
    rfl
  errors := by
    rw [cut.pieces_eq, errorsFrom, noError]
    rfl
  noEnd := noEnd

theorem scansTo_good {kind : Kind} {lexeme : List Char} (cut : Cut (good kind lexeme) rest)
    (notEnd : kind ≠ .endOfText) (line : Nat) :
    ScansTo lexeme line [⟨kind, .ofList lexeme, line⟩] rest :=
  scansTo_lexeme cut line rfl (List.forall_mem_singleton.mpr (by simpa [Token.isEnd] using notEnd))

theorem scansTo_space (line : Nat) (rest : List Char) : ScansTo [' '] line [] rest :=
  scansTo_lexeme (.blank rfl : Cut ⟨.blank, [' ']⟩ rest) line rfl (List.forall_mem_nil _)

/-- A sign of one character that no longer sign begins with stands alone. -/
theorem scansTo_sign {sign : Sign} {c : Char}
    (alone : ∀ rest, sign? (c :: rest) = some (sign, [c], rest)) (line : Nat)
    (rest : List Char) : ScansTo [c] line [⟨.sign sign, .ofList [c], line⟩] rest :=
  scansTo_good (.sign (alone rest)) nofun line

/-- A whole text is scanned to its tokens and the end of the text, without errors. -/
theorem ScansTo.scan_eq {source : String} (scans : ScansTo source.toList 1 used []) :
    scan source =
      (used ++ [⟨.endOfText, "", 1 + source.toList.count '\n'⟩], []) := by
  have tokens := scans.tokens
  have errors := scans.errors
  rw [List.append_nil, pieces] at tokens errors
  rw [scan, tokens, errors]
  rfl

end ScansTo

/-! ## What stands behind an item -/

/-- Nothing, or a text that begins with a comma or a closing bracket. -/
def EndsItem (rest : List Char) : Prop :=
  ∀ c ∈ rest.head?, c = ',' ∨ c = ']' ∨ c = '}'

theorem endsItem_nil : EndsItem [] :=
  nofun

theorem endsItem_cons {c : Char} {rest : List Char} :
    EndsItem (c :: rest) ↔ c = ',' ∨ c = ']' ∨ c = '}' := by
  simp [EndsItem]

/-- No name, number or keyword goes on there. -/
theorem EndsItem.stops {belongs : Char → Bool} {rest : List Char} (ends : EndsItem rest)
    (others : belongs ',' = false ∧ belongs ']' = false ∧ belongs '}' = false) :
    Stops belongs rest := by
  cases rest with
  | nil => rfl
  | cons c rest =>
      rw [stops_cons]
      rcases endsItem_cons.mp ends with rfl | rfl | rfl
      · exact others.1
      · exact others.2.1
      · exact others.2.2

theorem EndsItem.stopsNumber {rest : List Char} (ends : EndsItem rest) (decimals : List Char) :
    StopsNumber decimals rest := by
  unfold StopsNumber
  split
  · cases rest with
    | nil => rfl
    | cons c rest => rcases endsItem_cons.mp ends with rfl | rfl | rfl <;> rfl
  · exact ends.stops ⟨rfl, rfl, rfl⟩

/-! ## Texts that read back -/

/-- What the scanner takes for an identifier: letters, digits and underscores, of which the first
one is no digit, and not a keyword. -/
structure IsIdentifier (name : String) : Prop where
  starts : name.toList.head?.any startsName = true
  belongs : ∀ c ∈ name.toList, isName c = true
  noKeyword : Keyword.ofText? name = none

/-- In front of what ends an item, the text is cut into tokens that write something good. -/
def ReadsBack {β : Type} (text : List Char) (Item : β → List Token → Prop) (Good : β → Prop) :
    Prop :=
  ∀ line rest, EndsItem rest → ∃ used b, ScansTo text line used rest ∧ Item b used ∧ Good b

theorem ReadsBack.imp {β : Type} {text : List Char} {Item : β → List Token → Prop}
    {Good Better : β → Prop} (better : ∀ b, Good b → Better b)
    (back : ReadsBack text Item Good) : ReadsBack text Item Better := by
  intro line rest ends
  rcases back line rest ends with ⟨used, b, scans, item, isGood⟩
  exact ⟨used, b, scans, item, better b isGood⟩

theorem readsBack_token {text : List Char} {kind : Kind} {literal : Literal}
    (cut : ∀ rest, EndsItem rest → Cut (good kind text) rest)
    (isLiteral : ∀ lexeme line, Expr.leaf? ⟨kind, lexeme, line⟩ = some (.literal literal)) :
    ReadsBack text Expr.Written (· = .literal literal) := by
  intro line rest ends
  have notEnd : kind ≠ .endOfText := by
    rintro rfl
    exact absurd (isLiteral "" 1) nofun
  exact ⟨_, _, scansTo_good (cut rest ends) notEnd line, .literal (isLiteral _ _), rfl⟩

/-- The spelling of a keyword that is a value reads back. -/
theorem readsBack_keyword {keyword : Keyword} {literal : Literal}
    (isLiteral : ∀ lexeme line,
      Expr.leaf? ⟨.keyword keyword, lexeme, line⟩ = some (.literal literal)) :
    ReadsBack keyword.text.toList Expr.Written (· = .literal literal) := by
  have isName : (keyword.text.toList.head?.any startsName &&
      keyword.text.toList.all isName) = true := by
    cases keyword with
    | conversion which => cases which <;> decide
    | _ => decide
  rw [Bool.and_eq_true, List.all_eq_true] at isName
  refine @readsBack_token _ (.keyword keyword) _ (fun rest ends => ?_) isLiteral
  have cut := @Cut.name _ rest isName.1 isName.2 (ends.stops ⟨rfl, rfl, rfl⟩)
  rwa [nameKind, String.ofList_toList, Keyword.ofText?_text] at cut

/-- A text without a double quote reads back from between two of them. -/
theorem readsBack_quoted {inside : List Char} (noQuote : '"' ∉ inside) :
    ReadsBack ('"' :: inside ++ ['"']) Expr.Written
      (· = .literal (.string (.ofList inside))) :=
  readsBack_token (fun _ _ => .closed (.inl rfl) noQuote) fun _ _ => rfl

section Numbers

variable {whole decimals : List Char} (digits : IsDigits whole) (fraction : IsFraction decimals)
include digits fraction

theorem readsBack_number :
    ReadsBack (whole ++ decimals) Expr.Written
      (· = .literal (.number (Numeral.read (.ofList (whole ++ decimals))))) :=
  readsBack_token (fun _ ends => .number digits fraction (ends.stops ⟨rfl, rfl, rfl⟩)
    (ends.stopsNumber decimals)) fun _ _ => rfl

/-- A minus sign in front of a number is read as an operator. -/
theorem readsBack_negated :
    ReadsBack ('-' :: (whole ++ decimals)) Expr.Written fun expression =>
      ∃ token : Token, token.kind = .sign .minus ∧ expression = .unary .negate token
        (.literal (.number (Numeral.read (.ofList (whole ++ decimals))))) := by
  intro line rest ends
  rcases readsBack_number digits fraction (line + ['-'].count '\n') rest ends with
    ⟨used, _, scans, written, rfl⟩
  have minus := @scansTo_sign .minus '-' (fun _ => rfl) line (whole ++ decimals ++ rest)
  exact ⟨_, _, minus.append scans, .unary written, _, rfl, rfl⟩

end Numbers

/-- Items that read back one by one do so with commas between them. -/
theorem readsBack_intercalate {α β : Type} {Item : β → List Token → Prop} {render : α → String}
    {Good : α → β → Prop} {list : List α}
    (each : ∀ a ∈ list, ReadsBack (render a).toList Item (Good a)) :
    ReadsBack (", ".intercalate (list.map render)).toList (Items Item)
      (List.Forall₂ Good list) := by
  induction list with
  | nil => exact fun line rest _ => ⟨[], [], scansTo_nil, .nil, .nil⟩
  | cons a list ih =>
      rcases List.forall_mem_cons.mp each with ⟨first, others⟩
      intro line rest ends
      cases list with
      | nil =>
          rcases first line rest ends with ⟨used, b, scans, item, isGood⟩
          rw [List.map_singleton, String.intercalate_singleton]
          refine ⟨used ++ [], [b], ?_, .last item (List.forall_mem_nil _), .cons isGood .nil⟩
          rwa [List.append_nil]
      | cons next list =>
          rw [List.map_cons, List.map_cons, String.intercalate_cons_cons, ← List.map_cons,
            String.toList_append, String.toList_append]
          have isText : ", ".toList = [','] ++ [' '] := rfl
          rw [isText, List.append_assoc, List.append_assoc]
          generalize (", ".intercalate ((next :: list).map render)).toList = text at ih ⊢
          rcases first line ([','] ++ ([' '] ++ text) ++ rest) (endsItem_cons.mpr (.inl rfl)) with
            ⟨used, b, scans, item, isGood⟩
          have comma := @scansTo_sign .comma ',' (fun _ => rfl)
            (line + (render a).toList.count '\n') ([' '] ++ text ++ rest)
          rcases ih others (line + (render a).toList.count '\n' + [','].count '\n' +
            [' '].count '\n') rest ends with ⟨usedMore, items, scansMore, written, areGood⟩
          have noGap : Separators [] := List.forall_mem_nil _
          exact ⟨_, b :: items, scans.append (comma.append ((scansTo_space _ _).append scansMore)),
            @Items.more _ Item _ _ _ [] [] _ _ item noGap rfl noGap written, .cons isGood areGood⟩

/-! ## Containers -/

section Containers

variable {text : List Char}

theorem readsBack_array {Good : List Expr → Prop}
    (elements : ReadsBack text (Items Expr.Written) Good) :
    ReadsBack (['['] ++ (text ++ [']'])) Expr.Written fun expression =>
      ∃ expressions, expression = .array expressions ∧ Good expressions := by
  intro line rest _
  have opening := @scansTo_sign .leftBracket '[' (fun _ => rfl) line (text ++ [']'] ++ rest)
  rcases elements (line + ['['].count '\n') ([']'] ++ rest)
    (endsItem_cons.mpr (.inr (.inl rfl))) with ⟨used, expressions, scans, items, areGood⟩
  have closing := @scansTo_sign .rightBracket ']' (fun _ => rfl)
    (line + ['['].count '\n' + text.count '\n') rest
  have noGap : Separators [] := List.forall_mem_nil _
  exact ⟨_, .array expressions, opening.append (scans.append closing),
    .array rfl noGap items rfl, expressions, rfl, areGood⟩

theorem readsBack_object {Good : List (Token × Expr) → Prop}
    (properties : ReadsBack text (Items PropertyWritten) Good) :
    ReadsBack (['%'] ++ (['{'] ++ (text ++ ['}']))) Expr.Written fun expression =>
      ∃ entries, expression = .object entries ∧ Good entries := by
  intro line rest _
  have percent := @scansTo_sign .percent '%' (fun _ => rfl) line
    (['{'] ++ (text ++ ['}']) ++ rest)
  have opening := @scansTo_sign .leftBrace '{' (fun _ => rfl) (line + ['%'].count '\n')
    (text ++ ['}'] ++ rest)
  rcases properties (line + ['%'].count '\n' + ['{'].count '\n') (['}'] ++ rest)
    (endsItem_cons.mpr (.inr (.inr rfl))) with ⟨used, entries, scans, items, areGood⟩
  have closing := @scansTo_sign .rightBrace '}' (fun _ => rfl)
    (line + ['%'].count '\n' + ['{'].count '\n' + text.count '\n') rest
  have noGap : Separators [] := List.forall_mem_nil _
  exact ⟨_, .object entries, percent.append (opening.append (scans.append closing)),
    .object rfl rfl noGap items rfl, entries, rfl, areGood⟩

/-- A name, a colon and a value. -/
theorem readsBack_property {name : String} {Good : Expr → Prop} (isName : IsIdentifier name)
    (value : ReadsBack text Expr.Written Good) :
    ReadsBack (name.toList ++ ([':'] ++ ([' '] ++ text))) PropertyWritten fun property =>
      property.1.kind = .identifier ∧ property.1.lexeme = name ∧ Good property.2 := by
  intro line rest ends
  have cut := @Cut.name name.toList ([':'] ++ ([' '] ++ text) ++ rest) isName.starts
    isName.belongs (stops_cons.mpr rfl)
  rw [nameKind, String.ofList_toList, isName.noKeyword] at cut
  have first := scansTo_good cut nofun line
  have colon := @scansTo_sign .colon ':' (fun _ => rfl) (line + name.toList.count '\n')
    ([' '] ++ text ++ rest)
  rcases value (line + name.toList.count '\n' + [':'].count '\n' + [' '].count '\n') rest ends
    with ⟨used, expression, scans, written, isGood⟩
  refine ⟨_, (_, expression),
    first.append (colon.append ((scansTo_space _ _).append scans)),
    .property rfl written, rfl, String.ofList_toList, isGood⟩

end Containers

end Descriptor
