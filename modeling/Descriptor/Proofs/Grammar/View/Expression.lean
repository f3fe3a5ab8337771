import Descriptor.Proofs.Grammar.View.Step

/-!
# Expressions through a view

The rules of expressions look at nothing but the kinds of tokens.  So on what a view shows of some
tokens they read the same expression, with its tokens as the view shows them, or fail in the same
way.
-/

namespace Descriptor

/-! ## Trees through a map of tokens -/

mutual

/-- The expression with other tokens. -/
def Expr.mapTokens (map : Token → Token) : Expr → Expr
  | .literal value => .literal value
  | .variable name => .variable (map name)
  | .group inner => .group (inner.mapTokens map)
  | .array elements => .array (mapElements map elements)
  | .object properties => .object (mapProperties map properties)
  | .unary operator token right => .unary operator (map token) (right.mapTokens map)
  | .binary left operator token right =>
      .binary (left.mapTokens map) operator (map token) (right.mapTokens map)
  | .get object accessor => .get (object.mapTokens map) (accessor.mapTokens map)
  | .assign target value => .assign (map target) (value.mapTokens map)
  | .set object accessor value =>
      .set (object.mapTokens map) (accessor.mapTokens map) (value.mapTokens map)

/-- The access step with other tokens. -/
def Accessor.mapTokens (map : Token → Token) : Accessor → Accessor
  | .field name => .field (map name)
  | .element bracket index => .element (map bracket) (index.mapTokens map)

/-- The array elements with other tokens. -/
def mapElements (map : Token → Token) : List Expr → List Expr
  | [] => []
  | element :: elements => element.mapTokens map :: mapElements map elements

/-- The object properties with other tokens. -/
def mapProperties (map : Token → Token) : List (Token × Expr) → List (Token × Expr)
  | [] => []
  | (name, value) :: properties =>
      (map name, value.mapTokens map) :: mapProperties map properties

end

theorem mapElements_eq_map (map : Token → Token) (elements : List Expr) :
    mapElements map elements = elements.map (Expr.mapTokens map) := by
  induction elements with
  | nil => rfl
  | cons element elements ih => rw [mapElements, ih, List.map_cons]

theorem mapProperties_eq_map (map : Token → Token) (properties : List (Token × Expr)) :
    mapProperties map properties = properties.map (Prod.map map (Expr.mapTokens map)) := by
  induction properties with
  | nil => rfl
  | cons property properties ih =>
      rcases property with ⟨name, value⟩
      rw [mapProperties, ih, List.map_cons, Prod.map_apply]

mutual

theorem Expr.mapTokens_id : ∀ expression : Expr, expression.mapTokens id = expression
  | .literal _ => rfl
  | .variable _ => rfl
  | .group inner => by rw [Expr.mapTokens, inner.mapTokens_id]
  | .array elements => by rw [Expr.mapTokens, mapElements_id elements]
  | .object properties => by rw [Expr.mapTokens, mapProperties_id properties]
  | .unary _ _ right => by rw [Expr.mapTokens, right.mapTokens_id, id]
  | .binary left _ _ right => by rw [Expr.mapTokens, left.mapTokens_id, right.mapTokens_id, id]
  | .get object accessor => by rw [Expr.mapTokens, object.mapTokens_id, accessor.mapTokens_id]
  | .assign _ value => by rw [Expr.mapTokens, value.mapTokens_id, id]
  | .set object accessor value => by
      rw [Expr.mapTokens, object.mapTokens_id, accessor.mapTokens_id, value.mapTokens_id]

theorem Accessor.mapTokens_id : ∀ accessor : Accessor, accessor.mapTokens id = accessor
  | .field _ => rfl
  | .element _ index => by rw [Accessor.mapTokens, index.mapTokens_id, id]

theorem mapElements_id : ∀ elements : List Expr, mapElements id elements = elements
  | [] => rfl
  | element :: elements => by rw [mapElements, element.mapTokens_id, mapElements_id elements]

theorem mapProperties_id :
    ∀ properties : List (Token × Expr), mapProperties id properties = properties
  | [] => rfl
  | (_, value) :: properties => by
      rw [mapProperties, value.mapTokens_id, mapProperties_id properties, id]

end

theorem Expr.leaf?_map {map : Token → Token} (kinds : ∀ token, (map token).kind = token.kind)
    (token : Token) :
    Expr.leaf? (map token) = (Expr.leaf? token).map (Expr.mapTokens map) := by
  unfold Expr.leaf?
  rw [kinds]
  split <;> rfl

namespace Grammar

theorem assignment?_map (map : Token → Token) (target value : Expr) :
    assignment? (target.mapTokens map) (value.mapTokens map) =
      (assignment? target value).map (Expr.mapTokens map) := by
  cases target <;> rfl

variable {view : View} {inner : Operands}

/-- Both rules for what lies one level deeper do the same through a view. -/
structure Operands.Seen (view : View) (inner : Operands) : Prop where
  expression : inner.expression.step.Seen view (Expr.mapTokens view.map) inner.expression.step
  unary : inner.unary.step.Seen view (Expr.mapTokens view.map) inner.unary.step

section Rules

variable (seen : inner.Seen view)
include seen

/-! ## Brackets and single tokens -/

theorem parenthesized_seen :
    (parenthesized inner).Seen view (Expr.mapTokens view.map) (parenthesized inner) := by
  apply seen.expression.bind
  intro expression
  apply (Step.Seen.expect (by decide) _).bind
  intro closing
  exact .pure rfl

theorem arrayElement_seen (skips : view.Skips) :
    (arrayElement inner).step.Seen view (Prod.map (Expr.mapTokens view.map) id)
      (arrayElement inner).step := by
  apply seen.expression.bind
  intro element
  apply (Step.Seen.skipSeparators skips).bind
  intro _
  apply (Step.Seen.accept? (.inl (by decide))).bind
  intro accepted
  cases accepted with
  | none => exact .pure rfl
  | some comma =>
      apply (Step.Seen.skipSeparators skips).bind
      intro _
      exact .pure rfl

theorem array_seen (skips : view.Skips) :
    (array inner).Seen view (Expr.mapTokens view.map) (array inner) := by
  apply (Step.Seen.skipSeparators skips).bind
  intro _
  apply (Step.Seen.items skips (by simp [view.kind_map]) (arrayElement_seen seen skips)).bind
  intro elements
  apply (Step.Seen.expect (by decide) _).bind
  intro closing
  exact .pure (by rw [Expr.mapTokens, mapElements_eq_map])

theorem objectProperty_seen (skips : view.Skips) :
    (objectProperty inner).step.Seen view
      (Prod.map (Prod.map view.map (Expr.mapTokens view.map)) id)
      (objectProperty inner).step := by
  apply (Step.Seen.expect (by decide) _).bind
  intro name
  apply (Step.Seen.expect (by decide) _).bind
  intro colon
  apply seen.expression.bind
  intro value
  apply (Step.Seen.skipSeparators skips).bind
  intro _
  apply Step.Seen.next?.bind
  intro next
  rw [skips.any_shown fun token => by rw [view.kind_map]]
  split
  · exact .pure rfl
  · apply (Step.Seen.expect (by decide) _).bind
    intro comma
    apply (Step.Seen.skipSeparators skips).bind
    intro _
    exact .pure rfl

theorem object_seen (brackets : view.SkipsInBrackets) :
    (object inner).Seen view (Expr.mapTokens view.map) (object inner) := by
  -- Behind the brace separators can be skipped, so it has to be known that one is there.
  intro tokens tokens' shows
  by_cases opens : ∃ brace ∈ tokens.head?, brace.kind = .sign .leftBrace
  · have skips : view.Skips := by
      rcases opens with ⟨brace, first, isBrace⟩
      rcases List.head?_eq_some_iff.mp first with ⟨rest, rfl⟩
      exact brackets shows (.inr isBrace)
    refine Step.Seen.bind (Step.Seen.expect (by decide) _) (fun brace => ?_) shows
    apply (Step.Seen.skipSeparators skips).bind
    intro _
    apply (Step.Seen.items skips (by simp [view.kind_map])
      (objectProperty_seen seen skips)).bind
    intro properties
    apply (Step.Seen.expect (by decide) _).bind
    intro closing
    exact .pure (by rw [Expr.mapTokens, mapProperties_eq_map])
  · have asked : Kind.sign .leftBrace ≠ .separator := by decide
    have failed := Step.Seen.expect asked .expectedObjectBrace shows
    rw [Rule.run_expect_of_ne (by simpa using opens)] at failed
    unfold object
    rw [Step.run_bind, Step.run_bind, Rule.run_expect_of_ne (by simpa using opens)]
    generalize Step.run _ tokens' = result at failed
    cases failed with
    | error shows => exact .error shows

theorem primary_seen (brackets : view.SkipsInBrackets) :
    (primary inner).step.Seen view (Expr.mapTokens view.map) (primary inner).step := by
  apply Step.Seen.byToken
  · intro token rest tokens shows
    simp only [view.kind_map]
    split
    · exact .some (parenthesized_seen seen)
    · rename_i opens
      exact .some (array_seen seen (brackets shows (.inl opens)))
    · exact .some (object_seen seen brackets)
    · rw [Expr.leaf?_map view.kind_map]
      cases Expr.leaf? token with
      | none => exact .none
      | some leaf => exact .some (.pure rfl)
  · intro token isSeparator
    simp [isSeparator, Expr.leaf?]
  · exact .fail _

/-! ## Operators -/

theorem access?_seen (token : Token) :
    Option.Rel (fun next next' => ∀ object : Expr,
        (next object).Seen view (Expr.mapTokens view.map) (next' (object.mapTokens view.map)))
      (access? inner token) (access? inner (view.map token)) := by
  unfold access?
  rw [view.kind_map]
  split
  · refine .some fun object => ?_
    apply (Step.Seen.expect (by decide) _).bind
    intro name
    exact .pure rfl
  · refine .some fun object => ?_
    apply seen.expression.bind
    intro index
    apply (Step.Seen.expect (by decide) _).bind
    intro closing
    exact .pure rfl
  · exact .none

theorem accesses_seen (brackets : view.SkipsInBrackets) :
    (accesses inner).step.Seen view (Expr.mapTokens view.map) (accesses inner).step := by
  apply (primary_seen seen brackets).bind
  intro object
  exact .extend (access?_seen seen) (fun token isSeparator => by simp [access?, isSeparator]) object

theorem unary_seen (brackets : view.SkipsInBrackets) :
    (unary inner).step.Seen view (Expr.mapTokens view.map) (unary inner).step := by
  apply Step.Seen.byToken
  · intro token rest tokens shows
    rw [view.kind_map]
    cases UnaryOperator.ofKind? token.kind with
    | none => exact .none
    | some operator =>
        refine .some ?_
        apply seen.unary.bind
        intro right
        exact .pure rfl
  · intro token isSeparator
    simp [isSeparator, UnaryOperator.ofKind?]
  · exact accesses_seen seen brackets

omit seen in
theorem rightOperand?_seen {tighter : Rule Expr} (level : Level)
    (seen : tighter.step.Seen view (Expr.mapTokens view.map) tighter.step) (token : Token) :
    Option.Rel (fun next next' => ∀ left : Expr,
        (next left).Seen view (Expr.mapTokens view.map) (next' (left.mapTokens view.map)))
      (rightOperand? level tighter token) (rightOperand? level tighter (view.map token)) := by
  unfold rightOperand?
  rw [view.kind_map]
  cases (BinaryOperator.ofKind? token.kind).filter (·.level == level) with
  | none => exact .none
  | some operator =>
      refine .some fun left => ?_
      apply seen.bind
      intro right
      exact .pure rfl

theorem binary_seen (brackets : view.SkipsInBrackets) (levels : List Level) :
    (binary inner levels).step.Seen view (Expr.mapTokens view.map) (binary inner levels).step := by
  induction levels with
  | nil => exact unary_seen seen brackets
  | cons level tighter ih =>
      apply ih.bind
      intro left
      exact .extend (rightOperand?_seen level ih)
        (fun token isSeparator => by simp [rightOperand?, isSeparator, BinaryOperator.ofKind?]) left

theorem assignment_seen (brackets : view.SkipsInBrackets) :
    (assignment inner).step.Seen view (Expr.mapTokens view.map) (assignment inner).step := by
  apply (binary_seen seen brackets Level.all).bind
  intro target
  apply (Step.Seen.accept? (.inl (by decide))).bind
  intro accepted
  cases accepted with
  | none => exact .pure rfl
  | some equals =>
      apply seen.expression.bind
      intro value
      rw [assignment?_map]
      cases assignment? target value with
      | none => exact .failAt _ equals
      | some expression => exact .pure rfl

end Rules

/-- The operands do the same through a view, wherever they stand. -/
theorem operands_seen (brackets : view.SkipsInBrackets) (room : Nat) :
    (operands room).Seen view := by
  induction room with
  | zero => exact ⟨.fail _, .fail _⟩
  | succ room ih => exact ⟨assignment_seen ih brackets, unary_seen ih brackets⟩

/-- Expressions are read the same through a view. -/
theorem expression_seen (brackets : view.SkipsInBrackets) (room : Nat) :
    (expression room).step.Seen view (Expr.mapTokens view.map) (expression room).step :=
  (operands_seen brackets room).expression

end Grammar

end Descriptor
