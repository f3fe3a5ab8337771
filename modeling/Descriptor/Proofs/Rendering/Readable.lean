import Descriptor.Compiled
import Descriptor.Proofs.Grammar.Writing.Statement
import Descriptor.Proofs.Number.Numeral
import Descriptor.Proofs.Rendering.Building
import Descriptor.Proofs.Rendering.Text
import Descriptor.Value.Rendering

/-!
# Renderings that can be read back

The rendering of a value is a descriptor.  If the value is readable, the descriptor has no fault
and evaluates to an equal value.  Readable are values whose containers never lie in themselves and
are not nested too deeply, whose numbers are written without an exponent, whose strings have no
double quote, and whose objects have names that the scanner takes for identifiers.

The induction is on why the value is readable.  Each part of the rendering is cut into the tokens
of an expression in front of whatever ends it there, and that expression builds the part anew.
-/

namespace Descriptor

/-! ## Readable values -/

/-- Inside the containers that are `opened`, the value can be read back if containers are nested
no deeper than `room`.  No container is opened again inside itself, and no object has a name
twice. -/
inductive Heap.Readable (heap : Heap) : (opened : List Location) → (room : Nat) → Value → Prop where
  | null {opened : List Location} {room : Nat} : Readable heap opened room .null
  | undefined {opened : List Location} {room : Nat} : Readable heap opened room .undefined
  | bool {opened : List Location} {room : Nat} (value : Bool) :
      Readable heap opened room (.bool value)
  | number {opened : List Location} {room : Nat} {x : Float} (plain : Numeral.IsPlain x) :
      Readable heap opened room (.number x)
  | string {opened : List Location} {room : Nat} {text : String}
      (noQuote : '"' ∉ text.toList) : Readable heap opened room (.string text)
  | array {opened : List Location} {room : Nat} {location : Location} {elements : List Value}
      (found : heap.get? location = some (.array elements)) (fresh : location ∉ opened)
      (each : ∀ element ∈ elements, Readable heap (location :: opened) room element) :
      Readable heap opened (room + 1) (.container location)
  | object {opened : List Location} {room : Nat} {location : Location} {record : Record Value}
      (found : heap.get? location = some (.object record)) (fresh : location ∉ opened)
      (distinct : record.names.Nodup) (names : ∀ name ∈ record.names, IsIdentifier name)
      (each : ∀ entry ∈ record.entries, Readable heap (location :: opened) room entry.2) :
      Readable heap opened (room + 1) (.container location)

/-! ## How values are rendered -/

namespace Heap

section Scalars

variable (heap : Heap) (opened : List Location)

theorem renderWithin_null : heap.renderWithin opened .null = Keyword.null.text := by
  simp [renderWithin, text, textWithin, Keyword.text]

theorem renderWithin_undefined :
    heap.renderWithin opened .undefined = Keyword.undefined.text := by
  simp [renderWithin, text, textWithin, Keyword.text]

theorem renderWithin_bool (value : Bool) :
    heap.renderWithin opened (.bool value) = (bif value then Keyword.true else .false).text := by
  cases value <;> simp [renderWithin, text, textWithin, Keyword.text]

theorem renderWithin_number (x : Float) :
    heap.renderWithin opened (.number x) = Numeral.write x := by
  simp [renderWithin, text, textWithin]

theorem toList_renderWithin_string (text : String) :
    (heap.renderWithin opened (.string text)).toList = '"' :: text.toList ++ ['"'] := by
  simp [renderWithin]

end Scalars

variable {heap : Heap} {opened : List Location} {location : Location}

theorem renderWithin_array {elements : List Value}
    (found : heap.get? location = some (.array elements)) (fresh : location ∉ opened) :
    heap.renderWithin opened (.container location) =
      "[" ++ ", ".intercalate (elements.map (heap.renderWithin (location :: opened))) ++ "]" := by
  rw [renderWithin]
  split <;> simp_all

theorem renderWithin_object {record : Record Value}
    (found : heap.get? location = some (.object record)) (fresh : location ∉ opened) :
    heap.renderWithin opened (.container location) =
      "%\x7b" ++ ", ".intercalate (record.entries.map fun (name, value) =>
        name ++ ": " ++ heap.renderWithin (location :: opened) value) ++ "\x7d" := by
  rw [renderWithin]
  split <;> simp_all

theorem toList_renderWithin_array {elements : List Value}
    (found : heap.get? location = some (.array elements)) (fresh : location ∉ opened) :
    (heap.renderWithin opened (.container location)).toList = ['['] ++
      ((", ".intercalate (elements.map (heap.renderWithin (location :: opened)))).toList ++
        [']']) := by
  rw [renderWithin_array found fresh, String.toList_append, String.toList_append,
    List.append_assoc]
  rfl

theorem toList_renderWithin_object {record : Record Value}
    (found : heap.get? location = some (.object record)) (fresh : location ∉ opened) :
    (heap.renderWithin opened (.container location)).toList = ['%'] ++ (['{'] ++
      ((", ".intercalate (record.entries.map fun (name, value) =>
        name ++ ": " ++ heap.renderWithin (location :: opened) value)).toList ++ ['}'])) := by
  rw [renderWithin_object found fresh, String.toList_append, String.toList_append,
    List.append_assoc]
  rfl

end Heap

/-! ## Expressions that restore values -/

/-- A canonical expression that is not too deep and builds the value anew. -/
structure Expr.Restores (heap : Heap) (room : Nat) (value : Value) (expression : Expr) : Prop where
  canonical : expression.Canonical
  depth : expression.depth ≤ room + 1
  builds : expression.Builds heap value

section Restores

variable {heap : Heap} {opened : List Location} {room : Nat}

theorem restores_literal {value : Value} {literal : Literal}
    (same : value.strictEquals literal.toValue = true) :
    (Expr.literal literal).Restores heap room value where
  canonical := trivial
  depth := Nat.zero_le _
  builds := builds_literal same

/-- What follows from standing at the place of something holds for all of a list. -/
theorem forall_mem_of_forall₂ {α β : Type} {Related : α → β → Prop} {Good : β → Prop}
    {lefts : List α} {rights : List β} (each : ∀ left right, Related left right → Good right)
    (related : List.Forall₂ Related lefts rights) : ∀ right ∈ rights, Good right := by
  induction related with
  | nil => exact List.forall_mem_nil _
  | cons first _ ih => exact List.forall_mem_cons.mpr ⟨each _ _ first, ih⟩

theorem restores_array {location : Location} {elements : List Value} {expressions : List Expr}
    (found : heap.get? location = some (.array elements))
    (each : List.Forall₂ (Expr.Restores heap room) elements expressions) :
    (Expr.array expressions).Restores heap (room + 1) (.container location) where
  canonical := canonicalElements_iff.mpr (forall_mem_of_forall₂ (fun _ _ one => one.canonical) each)
  depth := depthOfElements_le_iff.mpr
    (forall_mem_of_forall₂ (fun _ _ one => Nat.lt_succ_of_le one.depth) each)
  builds := builds_array found (each.imp fun _ _ one => one.builds)

/-- A name token and an expression that restore an entry of an object. -/
structure RestoresEntry (heap : Heap) (room : Nat) (entry : String × Value)
    (property : Token × Expr) : Prop where
  isName : property.1.kind = .identifier
  name : property.1.lexeme = entry.1
  value : property.2.Restores heap room entry.2

theorem restores_object {location : Location} {record : Record Value}
    {properties : List (Token × Expr)} (found : heap.get? location = some (.object record))
    (distinct : record.names.Nodup)
    (each : List.Forall₂ (RestoresEntry heap room) record.entries properties) :
    (Expr.object properties).Restores heap (room + 1) (.container location) where
  canonical := canonicalProperties_iff.mpr
    (forall_mem_of_forall₂ (fun _ _ one => ⟨one.isName, one.value.canonical⟩) each)
  depth := depthOfProperties_le_iff.mpr
    (forall_mem_of_forall₂ (fun _ _ one => Nat.lt_succ_of_le one.value.depth) each)
  builds := by
    refine builds_object found distinct ?_ ?_
    · rw [Record.names, ← List.forall₂_eq_eq_eq, List.forall₂_map_left_iff,
        List.forall₂_map_right_iff]
      exact each.imp fun _ _ one => one.name.symm
    · rw [List.forall₂_map_left_iff, List.forall₂_map_right_iff]
      exact each.imp fun _ _ one => one.value.builds

/-! ## Renderings of readable values -/

/-- A value that is rendered as a keyword is restored by the literal of that keyword. -/
theorem readsBack_of_eq_text {value : Value} {keyword : Keyword} {literal : Literal}
    (isText : heap.renderWithin opened value = keyword.text)
    (isLiteral : ∀ lexeme line,
      Expr.leaf? ⟨.keyword keyword, lexeme, line⟩ = some (.literal literal))
    (same : value.strictEquals literal.toValue = true) :
    ReadsBack (heap.renderWithin opened value).toList Expr.Written
      (Expr.Restores heap room value) := by
  rw [isText]
  refine (readsBack_keyword isLiteral).imp ?_
  rintro _ rfl
  exact restores_literal same

theorem readsBack_number_of_plain {x : Float} (plain : Numeral.IsPlain x) :
    ReadsBack (heap.renderWithin opened (.number x)).toList Expr.Written
      (Expr.Restores heap room (.number x)) := by
  rcases Numeral.exists_writtenAs plain with ⟨negative, whole, decimals, written⟩
  have value := written.value
  rw [Heap.renderWithin_number, written.text, String.toList_ofList]
  cases negative with
  | false =>
      rw [if_neg (by simp)] at value
      refine (readsBack_number written.digits written.fraction).imp ?_
      rintro _ rfl
      exact restores_literal value
  | true =>
      rw [if_pos rfl] at value
      refine (readsBack_negated written.digits written.fraction).imp ?_
      rintro _ ⟨token, isMinus, rfl⟩
      have isOperator : UnaryOperator.ofKind? token.kind = some .negate := by
        rw [isMinus]
        rfl
      exact ⟨⟨isOperator, unaryRank_lt_accessRank.le, trivial⟩, Nat.le_add_left 1 room,
        builds_negate value token⟩

/-- The rendering of a readable value is read as an expression that restores it. -/
theorem readsBack_render {value : Value} (readable : heap.Readable opened room value) :
    ReadsBack (heap.renderWithin opened value).toList Expr.Written
      (Expr.Restores heap room value) := by
  induction readable with
  | null => exact readsBack_of_eq_text (heap.renderWithin_null _) (fun _ _ => rfl) rfl
  | undefined => exact readsBack_of_eq_text (heap.renderWithin_undefined _) (fun _ _ => rfl) rfl
  | bool value =>
      cases value with
      | false => exact readsBack_of_eq_text (heap.renderWithin_bool _ false) (fun _ _ => rfl) rfl
      | true => exact readsBack_of_eq_text (heap.renderWithin_bool _ true) (fun _ _ => rfl) rfl
  | number plain => exact readsBack_number_of_plain plain
  | string noQuote =>
      rw [Heap.toList_renderWithin_string]
      refine (readsBack_quoted noQuote).imp ?_
      rintro _ rfl
      exact restores_literal (by simp [Value.strictEquals, Literal.toValue])
  | array found fresh _ ih =>
      rw [Heap.toList_renderWithin_array found fresh]
      refine (readsBack_array (readsBack_intercalate ih)).imp ?_
      rintro _ ⟨expressions, rfl, restored⟩
      exact restores_array found restored
  | @object opened room location record found fresh distinct names _ ih =>
      have entries : ∀ entry ∈ record.entries,
          ReadsBack (entry.1 ++ ": " ++ heap.renderWithin (location :: opened) entry.2).toList
            PropertyWritten (RestoresEntry heap room entry) := by
        intro entry member
        have property := readsBack_property (names entry.1 (List.mem_map_of_mem member))
          (ih entry member)
        rw [String.toList_append, String.toList_append, List.append_assoc]
        refine property.imp ?_
        rintro _ ⟨isName, same, restored⟩
        exact ⟨isName, same, restored⟩
      rw [Heap.toList_renderWithin_object found fresh]
      refine (readsBack_object (readsBack_intercalate entries)).imp ?_
      rintro _ ⟨properties, rfl, restored⟩
      exact restores_object found distinct restored

end Restores

/-! ## Rendered descriptors -/

/-- The end of the text is not read. -/
theorem readTokens_append_end {used : List Token} (noEnd : ∀ token ∈ used, token.isEnd = false)
    (line : Nat) : readTokens (used ++ [⟨.endOfText, "", line⟩]) = used := by
  have before : ∀ token ∈ used, (!token.isEnd) = true := by simpa using noEnd
  rw [readTokens, List.takeWhile_append_of_pos before,
    List.takeWhile_cons_of_neg (by simp [Token.isEnd]), List.append_nil]

/-- A canonical expression that is not too deep is parsed as a program from the tokens that write
it. -/
theorem parse_of_written {tokens : List Token} {expression : Expr}
    (written : expression.Written (readTokens tokens)) (canonical : expression.Canonical)
    (depth : expression.depth + 2 ≤ nestingLimit) :
    parse tokens = ([.expression expression], []) := by
  have noGap : Separators [] := List.forall_mem_nil _
  have body := BodyWritten.cons noGap
    (.expression written (.omitted rfl : Terminated [] ([] ++ []))) (.nil noGap)
  rw [List.append_nil, List.append_nil] at body
  exact parse_eq_iff.mpr ⟨body, ⟨canonical, trivial⟩, Nat.max_le.mpr ⟨depth, Nat.zero_le _⟩⟩

/-- The rendering of a readable value is a descriptor of one expression, which builds the value
anew. -/
theorem exists_parseSource_render {heap : Heap} {value : Value}
    (readable : heap.Readable [] 60 value) :
    ∃ expression : Expr, parseSource (heap.render value) = ([.expression expression], []) ∧
      expression.Builds heap value := by
  rcases readsBack_render readable 1 [] endsItem_nil with
    ⟨used, expression, scans, written, restores⟩
  have scanned : scan (heap.render value) = _ := scans.scan_eq
  have depth : expression.depth + 2 ≤ nestingLimit :=
    (Nat.add_le_add_right restores.depth 2).trans (by decide)
  have parsed : parse (scan (heap.render value)).1 = ([.expression expression], []) := by
    refine parse_of_written ?_ restores.canonical depth
    rw [scanned, readTokens_append_end scans.noEnd]
    exact written
  refine ⟨expression, ?_, restores.builds⟩
  rw [parseSource, parsed, scanned]
  rfl

/-- Rendering can be undone.  The rendering of a value that is readable, with containers nested at
most sixty deep, has no compile error.  Evaluated in any scope it has no runtime error, leaves all
containers as they are, and gives a value that is structurally equal to the one that was
rendered. -/
theorem evaluate_render {heap : Heap} {value : Value} (readable : heap.Readable [] 60 value) :
    ∃ program, parseSource (heap.render value) = (program, []) ∧
      ∀ scope errors,
        let ran := evaluate program ⟨heap, scope, errors⟩
        ran.2.errors = errors ∧ heap.LiesIn ran.2.heap ∧ ran.2.heap.equal value ran.1 = true := by
  rcases exists_parseSource_render readable with ⟨expression, isProgram, builds⟩
  refine ⟨_, isProgram, fun scope errors => ?_⟩
  rcases builds ⟨heap, .ofList false [] :: scope, errors⟩ (.refl heap) with ⟨grown, equal⟩
  exact ⟨grown.errors, grown.heap, equal⟩

/-- An array of a negative number, a text of two lines, and one object twice. -/
def sharingHeap : Heap :=
  ⟨#[.array [.number (Binary64.ofInt (-7)), .string "it's\nfine", .container 1, .container 1],
    .object (.ofList [("a_1", .undefined)])]⟩

theorem readable_sharingHeap : sharingHeap.Readable [] 60 (.container 0) := by
  have plain : Numeral.IsPlain (Binary64.ofInt (-7)) :=
    ⟨true, Binary64.nearestPattern (7 * Binary64.unitsPerOne) 1, by decide +kernel,
      .inr ⟨by decide +kernel, by decide +kernel⟩⟩
  have isName : IsIdentifier "a_1" := ⟨rfl, by simp [Piece.isName], rfl⟩
  have object : sharingHeap.Readable [0] 59 (.container 1) :=
    .object rfl (by decide) (by decide) (List.forall_mem_singleton.mpr isName)
      (List.forall_mem_singleton.mpr .undefined)
  refine .array rfl (by decide) ?_
  simp only [List.forall_mem_cons, List.not_mem_nil, false_imp_iff, implies_true, and_true]
  exact ⟨.number plain, .string (by simp), object, object⟩

theorem render_sharingHeap :
    sharingHeap.render (.container 0) =
      "[-7, \"it's\nfine\", %\x7ba_1: undefined\x7d, %\x7ba_1: undefined\x7d]" := by
  have isNumber : Numeral.write (Binary64.ofInt (-7)) = "-7" := by decide +kernel
  have entries : (Record.ofList [("a_1", Value.undefined)]).entries = [("a_1", .undefined)] := rfl
  have object : sharingHeap.renderWithin [0] (.container 1) = "%\x7ba_1: undefined\x7d" := by
    rw [@Heap.renderWithin_object _ _ _ (.ofList [("a_1", .undefined)]) rfl (by decide), entries]
    simp [Heap.renderWithin, Heap.text, Heap.textWithin]
  rw [Heap.render, Heap.renderWithin_array rfl (by decide)]
  simp [object, Heap.renderWithin, Heap.text, Heap.textWithin, isNumber]

theorem evaluate_render_sharing :
    sharingHeap.Readable [] 60 (.container 0) ∧
      ∃ program,
        parseSource "[-7, \"it's\nfine\", %\x7ba_1: undefined\x7d, %\x7ba_1: undefined\x7d]" =
          (program, []) ∧
        (evaluate program ⟨sharingHeap, [], #[]⟩).2.errors = #[] ∧
          (evaluate program ⟨sharingHeap, [], #[]⟩).2.heap.equal (.container 0)
            (evaluate program ⟨sharingHeap, [], #[]⟩).1 = true := by
  rcases evaluate_render readable_sharingHeap with ⟨program, isProgram, back⟩
  rw [render_sharingHeap] at isProgram
  rcases back [] #[] with ⟨errors, -, equal⟩
  exact ⟨readable_sharingHeap, program, isProgram, errors, equal⟩

end Descriptor
