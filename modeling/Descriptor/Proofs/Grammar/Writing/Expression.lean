import Descriptor.Proofs.Grammar.Opening
import Descriptor.Proofs.Grammar.Writing.Step

/-!
# Written expressions are read

The tokens that write a canonical expression are read as that expression, whatever stands behind
them, as long as it does not go on with the expression.  The proof goes along the rules, and
within the rules that group to the left along the left operands.
-/

namespace Descriptor

/-! ## What goes on with an expression -/

/-- The rank of what a token of this kind makes of the expression before it. -/
def Kind.rank? (kind : Kind) : Option Nat :=
  match kind with
  | .sign .equal => some 0
  | .sign .dot | .sign .leftBracket => some accessRank
  | _ => (BinaryOperator.ofKind? kind).map (·.level.rank)

/-- An operator makes an expression of the rank of its level. -/
theorem Kind.rank?_of_operator {kind : Kind} {operator : BinaryOperator}
    (isOperator : BinaryOperator.ofKind? kind = some operator) :
    kind.rank? = some operator.level.rank := by
  unfold rank?
  split
  case h_4 => rw [isOperator, Option.map_some]
  all_goals contradiction

/-- The tokens do not go on with an expression before them, if only expressions of at least the
given rank may be made. -/
def Follows (rank : Nat) (rest : List Token) : Prop :=
  ∀ token ∈ rest.head?, ∀ next ∈ token.kind.rank?, next < rank

namespace Follows

variable {rank : Nat} {rest : List Token} {token : Token}

theorem mono {higher : Nat} (follows : Follows rank rest) (le : rank ≤ higher) :
    Follows higher rest :=
  fun token first next isNext => Nat.lt_of_lt_of_le (follows token first next isNext) le

theorem cons_iff : Follows rank (token :: rest) ↔ ∀ next ∈ token.kind.rank?, next < rank := by
  simp [Follows]

/-- A token of this kind goes on with no expression. -/
theorem of_kind {kind : Kind} (isKind : token.kind = kind) (ends : kind.rank? = none) :
    Follows rank (token :: rest) := by
  rw [cons_iff, isKind, ends]
  simp

/-- Neither separators nor a token of this kind behind them go on with an expression. -/
theorem separators {gap : List Token} {kind : Kind} (separators : Separators gap)
    (isKind : token.kind = kind) (ends : kind.rank? = none) :
    Follows rank (gap ++ token :: rest) := by
  cases gap with
  | nil => exact of_kind isKind ends
  | cons first gap =>
      have isSeparator : first.kind = .separator :=
        beq_iff_eq.mp (separators first List.mem_cons_self)
      exact of_kind isSeparator rfl

/-- Where nothing goes on with an expression, nothing is assigned to it. -/
theorem ne_equal (follows : Follows 0 rest) : ∀ token ∈ rest.head?, token.kind ≠ .sign .equal := by
  intro token first isEqual
  exact Nat.not_lt_zero 0 (follows token first 0 (by rw [isEqual]; rfl))

end Follows

namespace Grammar

/-! ## Expressions -/

/-- The rule reads every expression of the given rank that is no deeper than allowed. -/
def Rule.Completes (rule : Rule Expr) (limit rank : Nat) : Prop :=
  ∀ ⦃expression used rest⦄, ExprRead limit rank expression used → Follows rank rest →
    rule.step.run (used ++ rest) = .ok (expression, rest)

section Rules

variable {inner : Operands} {room : Nat} (completes : inner.expression.Completes room 0)
include completes

theorem parenthesized_completes {expression : Expr} {used rest : List Token} {closing : Token}
    (read : ExprRead room 0 expression used) (closes : closing.kind = .sign .rightParen) :
    (parenthesized inner).run (used ++ closing :: rest) = .ok (.group expression, rest) := by
  rw [parenthesized, Step.run_bind_of_run (completes read (.of_kind closes rfl)),
    Step.run_bind_of_run (Rule.run_expect_of_kind closes _ _), Step.run_pure]

theorem arrayElement_completes :
    ItemWritten (ExprRead room 0) (·.kind == .sign .rightBracket) (arrayElement inner) where
  head := by
    intro element used read
    rcases element.exists_opens used read.written read.canonical with ⟨token, rest, rfl, opens⟩
    exact ⟨token, rest, rfl, beq_eq_false_iff_ne.mpr (opens.kind_ne rfl),
      beq_eq_false_iff_ne.mpr (opens.kind_ne rfl)⟩
  last := by
    intro element used gap closing read separators closes rest
    have isClosing : closing.kind = .sign .rightBracket := beq_iff_eq.mp closes
    have start : (closing :: rest).dropWhile Token.isSeparator = closing :: rest :=
      dropWhile_isSeparator_of_ne (by simp [isClosing]) rest
    refine ⟨false, ?_⟩
    rw [arrayElement,
      Rule.run_andThen_of_run (completes read (.separators separators isClosing rfl)),
      Step.run_bind_of_run (Step.run_skipSeparators_of_gap separators start),
      Step.run_bind_of_run (Step.run_accept?_of_ne (by simp [isClosing])), Step.run_pure]
  more := by
    intro element used gap comma behind rest read separators isComma separatorsBehind start
    have commaStart : (comma :: (behind ++ rest)).dropWhile Token.isSeparator =
        comma :: (behind ++ rest) :=
      dropWhile_isSeparator_of_ne (by simp [isComma]) _
    rw [arrayElement,
      Rule.run_andThen_of_run (completes read (.separators separators isComma rfl)),
      Step.run_bind_of_run (Step.run_skipSeparators_of_gap separators commaStart),
      Step.run_bind_of_run (Step.run_accept?_of_kind isComma _),
      Step.run_bind_of_run (Step.run_skipSeparators_of_gap separatorsBehind start), Step.run_pure]

theorem objectProperty_completes :
    ItemWritten (PropertyRead room) (·.kind == .sign .rightBrace) (objectProperty inner) where
  head := by
    intro property used read
    cases read.written with
    | @property name colon value used isColon written =>
        have isName : name.kind = .identifier := read.isName
        exact ⟨name, _, rfl, by simp [Token.isSeparator, isName], by simp [isName]⟩
  last := by
    intro property used gap closing read separators closes rest
    cases read.written with
    | @property name colon value used isColon written =>
        have isClosing : closing.kind = .sign .rightBrace := beq_iff_eq.mp closes
        have start : (closing :: rest).dropWhile Token.isSeparator = closing :: rest :=
          dropWhile_isSeparator_of_ne (by simp [isClosing]) rest
        have valueRead : ExprRead room 0 value used :=
          ⟨written, read.canonical, read.depth, Nat.zero_le _⟩
        refine ⟨true, ?_⟩
        rw [objectProperty, List.cons_append,
          Rule.run_andThen_of_run (Rule.run_expect_of_kind read.isName _ _), List.cons_append,
          Step.run_bind_of_run (Rule.run_expect_of_kind isColon _ _),
          Step.run_bind_of_run (completes valueRead (.separators separators isClosing rfl)),
          Step.run_bind_of_run (Step.run_skipSeparators_of_gap separators start),
          Step.run_bind_of_run (Step.run_next? _), if_pos (by simp [isClosing]), Step.run_pure]
  more := by
    intro property used gap comma behind rest read separators isComma separatorsBehind start
    cases read.written with
    | @property name colon value used isColon written =>
        have commaStart : (comma :: (behind ++ rest)).dropWhile Token.isSeparator =
            comma :: (behind ++ rest) :=
          dropWhile_isSeparator_of_ne (by simp [isComma]) _
        have valueRead : ExprRead room 0 value used :=
          ⟨written, read.canonical, read.depth, Nat.zero_le _⟩
        rw [objectProperty, List.cons_append,
          Rule.run_andThen_of_run (Rule.run_expect_of_kind read.isName _ _), List.cons_append,
          Step.run_bind_of_run (Rule.run_expect_of_kind isColon _ _),
          Step.run_bind_of_run (completes valueRead (.separators separators isComma rfl)),
          Step.run_bind_of_run (Step.run_skipSeparators_of_gap separators commaStart),
          Step.run_bind_of_run (Step.run_next? _), if_neg (by simp [isComma]),
          Step.run_bind_of_run (Rule.run_expect_of_kind isComma _ _),
          Step.run_bind_of_run (Step.run_skipSeparators_of_gap separatorsBehind start),
          Step.run_pure]

theorem array_completes {elements : List Expr} {gap used rest : List Token} {closing : Token}
    (separators : Separators gap) (items : Items (ExprRead room 0) elements used)
    (closes : closing.kind = .sign .rightBracket) :
    (array inner).run (gap ++ (used ++ closing :: rest)) = .ok (.array elements, rest) := by
  have other : closing.isSeparator = false := by simp [Token.isSeparator, closes]
  have element := arrayElement_completes completes
  have start := element.dropWhile_items items other rest
  have ran : (Step.items (arrayElement inner) (·.kind == .sign .rightBracket)).run
      (used ++ closing :: rest) = .ok (elements, closing :: rest) :=
    Step.itemsFrom_of_items element items (beq_iff_eq.mpr closes) other
  rw [array, Step.run_bind_of_run (Step.run_skipSeparators_of_gap separators start),
    Step.run_bind_of_run ran, Step.run_bind_of_run (Rule.run_expect_of_kind closes _ _),
    Step.run_pure]

theorem object_completes {properties : List (Token × Expr)} {gap used rest : List Token}
    {opening closing : Token} (opens : opening.kind = .sign .leftBrace)
    (separators : Separators gap) (items : Items (PropertyRead room) properties used)
    (closes : closing.kind = .sign .rightBrace) :
    (object inner).run (opening :: (gap ++ (used ++ closing :: rest))) =
      .ok (.object properties, rest) := by
  have other : closing.isSeparator = false := by simp [Token.isSeparator, closes]
  have property := objectProperty_completes completes
  have start := property.dropWhile_items items other rest
  have ran : (Step.items (objectProperty inner) (·.kind == .sign .rightBrace)).run
      (used ++ closing :: rest) = .ok (properties, closing :: rest) :=
    Step.itemsFrom_of_items property items (beq_iff_eq.mpr closes) other
  rw [object, Step.run_bind_of_run (Rule.run_expect_of_kind opens _ _),
    Step.run_bind_of_run (Step.run_skipSeparators_of_gap separators start),
    Step.run_bind_of_run ran, Step.run_bind_of_run (Rule.run_expect_of_kind closes _ _),
    Step.run_pure]

omit completes in
/-- No access follows where none may be made. -/
theorem access?_eq_none {rank : Nat} {rest : List Token} (follows : Follows rank rest)
    (loose : rank ≤ accessRank) : ∀ token ∈ rest.head?, access? inner token = none := by
  intro token first
  have next := follows token first
  unfold access?
  split
  case h_3 => rfl
  all_goals
    rename_i same
    rw [same] at next
    exact absurd (next accessRank rfl) (Nat.not_lt_of_le loose)

omit completes in
theorem leaf_completes {token : Token} {leaf : Expr} (isLeaf : Expr.leaf? token = some leaf)
    (rest : List Token) : (primary inner).step.run (token :: rest) = .ok (leaf, rest) := by
  refine Rule.run_byToken_eq_ok_iff.mpr (.inl ⟨token, rest, pure leaf, rfl, ?_, rfl⟩)
  rw [isLeaf]
  unfold Expr.leaf? at isLeaf
  split at isLeaf
  case h_8 => contradiction
  all_goals
    rename_i same
    rw [same]
    rfl

omit completes in
theorem access?_of_dot {token : Token} (isDot : token.kind = .sign .dot) :
    access? inner token = some fun object => do
      let name ← (Rule.expect .identifier .expectedPropertyName).step
      return .get object (.field name) := by
  rw [access?, isDot]

omit completes in
theorem access?_of_bracket {token : Token} (opens : token.kind = .sign .leftBracket) :
    access? inner token = some fun object => do
      let index ← inner.expression.step
      let _ ← (Rule.expect (.sign .rightBracket) .unterminatedIndex).step
      return .get object (.element token index) := by
  rw [access?, opens]

/-- An access step is read as the step of what is before it. -/
theorem access_completes {accessor : Accessor} {step rest : List Token}
    (written : accessor.Written step) (canonical : accessor.Canonical)
    (depth : accessor.depth < room + 1) (holder : Expr) :
    Step.extendFrom (access? inner) holder (step ++ rest) =
      Step.extendFrom (access? inner) (.get holder accessor) rest := by
  cases written with
  | @field dot name isDot =>
      rw [List.cons_append, List.singleton_append]
      apply Step.extendFrom_of_run (access?_of_dot isDot)
      rw [Step.run_bind_of_run (Rule.run_expect_of_kind canonical _ _), Step.run_pure]
  | @element bracket closing index used written closes =>
      have read : ExprRead room 0 index used :=
        ⟨written, canonical.2, Nat.lt_of_succ_lt_succ depth, Nat.zero_le _⟩
      rw [List.cons_append, List.append_assoc]
      apply Step.extendFrom_of_run (access?_of_bracket canonical.1)
      rw [List.cons_append, Step.run_bind_of_run (completes read (.of_kind closes rfl)),
        Step.run_bind_of_run (Rule.run_expect_of_kind closes _ _), Step.run_pure, List.nil_append]

/-- Accesses go on from the expression that their tokens write. -/
theorem accesses_completes : ∀ {expression : Expr} {used : List Token} (rest : List Token),
    ExprRead (room + 1) accessRank expression used →
      (accesses inner).step.run (used ++ rest) = Step.extendFrom (access? inner) expression rest
  | .literal _, _, rest, ⟨.literal leaf, _, _, _⟩ =>
      Rule.run_andThen_of_run (leaf_completes leaf rest)
  | .variable name, _, rest, ⟨.variable _, isName, _, _⟩ =>
      Rule.run_andThen_of_run (leaf_completes (by unfold Expr.leaf?; rw [isName]) rest)
  | .group inside, _, rest, ⟨.group opens written closes, canonical, depth, _⟩ => by
      have read : ExprRead room 0 inside _ :=
        ⟨written, canonical, Nat.lt_of_succ_lt_succ depth, Nat.zero_le _⟩
      simp only [List.cons_append, List.append_assoc, List.nil_append]
      apply Rule.run_andThen_of_run
      exact (Rule.run_byToken_of_some (by rw [opens]) _).trans
        (parenthesized_completes completes read closes)
  | .array elements, _, rest, ⟨.array opens separators items closes, canonical, depth, _⟩ => by
      have itemsRead : Items (ExprRead room 0) elements _ :=
        items.imp fun element member _ written =>
          ⟨written, canonicalElements_iff.mp canonical element member,
            depthOfElements_le_iff.mp (Nat.le_of_lt_succ depth) element member, Nat.zero_le _⟩
      simp only [List.cons_append, List.append_assoc, List.nil_append]
      apply Rule.run_andThen_of_run
      exact (Rule.run_byToken_of_some (by rw [opens]) _).trans
        (array_completes completes separators itemsRead closes)
  | .object properties, _, rest,
      ⟨.object isPercent opens separators items closes, canonical, depth, _⟩ => by
      have itemsRead : Items (PropertyRead room) properties _ :=
        items.imp fun property member _ written => by
          rcases canonicalProperties_iff.mp canonical property member with ⟨isName, isCanonical⟩
          exact ⟨written, isName, isCanonical,
            depthOfProperties_le_iff.mp (Nat.le_of_lt_succ depth) property member⟩
      simp only [List.cons_append, List.append_assoc, List.nil_append]
      apply Rule.run_andThen_of_run
      exact (Rule.run_byToken_of_some (by rw [isPercent]) _).trans
        (object_completes completes opens separators itemsRead closes)
  | .get holder accessor, _, rest, ⟨.get written stepWritten, canonical, depth, _⟩ => by
      have before : ExprRead (room + 1) accessRank holder _ :=
        ⟨written, canonical.2.1, lt_of_le_of_lt (Nat.le_max_left _ _) depth, canonical.1⟩
      rw [List.append_assoc, accesses_completes _ before]
      exact access_completes completes stepWritten canonical.2.2
        (lt_of_le_of_lt (Nat.le_max_right _ _) depth) holder
  | .unary _ _ _, _, _, ⟨_, _, _, loose⟩ =>
      absurd loose (Nat.not_le_of_lt unaryRank_lt_accessRank)
  | .binary _ operator _ _, _, _, ⟨_, _, _, loose⟩ =>
      absurd loose (Nat.not_le_of_lt
        (Nat.lt_trans operator.level.rank_lt_unaryRank unaryRank_lt_accessRank))
  | .assign _ _, _, _, ⟨_, _, _, loose⟩ => absurd loose (Nat.not_succ_le_zero _)
  | .set _ _ _, _, _, ⟨_, _, _, loose⟩ => absurd loose (Nat.not_succ_le_zero _)

/-- Unary operators and accesses are read, where no access follows. -/
theorem unary_completes (completesUnary : inner.unary.Completes room unaryRank) :
    (unary inner).Completes (room + 1) unaryRank := by
  intro expression used rest read follows
  by_cases access : accessRank ≤ expression.rank
  · have readAccess : ExprRead (room + 1) accessRank expression used :=
      ⟨read.written, read.canonical, read.depth, access⟩
    have ran := accesses_completes completes rest readAccess
    rw [Step.extendFrom_of_unselected (access?_eq_none follows (Nat.le_succ unaryRank))] at ran
    rcases expression.exists_opens used read.written read.canonical with ⟨token, tail, rfl, opens⟩
    have noOperator := opens.operator access
    exact (Rule.run_byToken_of_none (by rw [noOperator, Option.map_none]) _).trans ran
  · rcases read with ⟨written, canonical, depth, tight⟩
    cases written with
    | @unary operator token right used rightWritten =>
        have rightRead : ExprRead room unaryRank right used :=
          ⟨rightWritten, canonical.2.2, Nat.lt_of_succ_lt_succ depth, canonical.2.1⟩
        rw [List.cons_append]
        apply (Rule.run_byToken_of_some (by rw [canonical.1, Option.map_some]) _).trans
        rw [Step.run_bind_of_run (completesUnary rightRead follows), Step.run_pure]
    | @binary left right operator =>
        exact absurd tight (Nat.not_le_of_lt operator.level.rank_lt_unaryRank)
    | assign | set => exact absurd tight (Nat.not_succ_le_zero _)
    | _ => exact absurd (Nat.le_refl accessRank) access

omit completes in
/-- No operator of a level follows where none of its rank may be made. -/
theorem rightOperand?_eq_none {level : Level} {tighter : Rule Expr} {rest : List Token}
    (follows : Follows level.rank rest) :
    ∀ token ∈ rest.head?, rightOperand? level tighter token = none := by
  intro token first
  rw [rightOperand?, Option.map_eq_none_iff, Option.filter_eq_none_iff]
  intro operator isOperator sameLevel
  obtain rfl : operator.level = level := beq_iff_eq.mp sameLevel
  exact Nat.lt_irrefl _ (follows token first _ (Kind.rank?_of_operator isOperator))

omit completes in
/-- An operator and its right operand are read as extending what is before them. -/
theorem rightOperand_completes {operator : BinaryOperator} {tighter : Rule Expr} {right : Expr}
    {token : Token} {used rest : List Token}
    (completesTighter : tighter.Completes (room + 1) (operator.level.rank + 1))
    (isOperator : BinaryOperator.ofKind? token.kind = some operator)
    (read : ExprRead (room + 1) (operator.level.rank + 1) right used)
    (follows : Follows (operator.level.rank + 1) rest) (left : Expr) :
    Step.extendFrom (rightOperand? operator.level tighter) left (token :: (used ++ rest)) =
      Step.extendFrom (rightOperand? operator.level tighter)
        (.binary left operator token right) rest := by
  have selected : (BinaryOperator.ofKind? token.kind).filter (·.level == operator.level) =
      some operator := by
    rw [isOperator, Option.filter_some, beq_self_eq_true, if_pos rfl]
  apply Step.extendFrom_of_run (by rw [rightOperand?, selected, Option.map_some])
  rw [Step.run_bind_of_run (completesTighter read follows), Step.run_pure]

omit completes in
/-- The operands of a level are read one after the other, each extending what is before it. -/
theorem operands_completes {level : Level} {tighter : Rule Expr}
    (completesTighter : tighter.Completes (room + 1) (level.rank + 1))
    {expression : Expr} {used rest : List Token}
    (read : ExprRead (room + 1) level.rank expression used)
    (follows : Follows (level.rank + 1) rest) :
    (tighter.andThen (Step.extend (rightOperand? level tighter))).step.run (used ++ rest) =
      Step.extendFrom (rightOperand? level tighter) expression rest := by
  rcases read with ⟨written, canonical, depth, rank⟩
  rcases expression.lt_rank_or_binary rank with
    tight | ⟨left, operator, token, right, rfl, rfl⟩
  · exact Rule.run_andThen_of_run (completesTighter ⟨written, canonical, depth, tight⟩ follows)
  · -- The tokens of the left operand are fewer, and the operator goes on with it.
    cases written with
    | @binary _ _ _ _ leftUsed rightUsed leftWritten rightWritten =>
        rcases canonical with ⟨isOperator, leftRank, rightRank, leftCanonical, rightCanonical⟩
        have leftRead : ExprRead (room + 1) operator.level.rank left leftUsed :=
          ⟨leftWritten, leftCanonical, lt_of_le_of_lt (Nat.le_max_left _ _) depth, leftRank⟩
        have rightRead : ExprRead (room + 1) (operator.level.rank + 1) right rightUsed :=
          ⟨rightWritten, rightCanonical, lt_of_le_of_lt (Nat.le_max_right _ _) depth, rightRank⟩
        have goesOn : Follows (operator.level.rank + 1) (token :: (rightUsed ++ rest)) := by
          rw [Follows.cons_iff, Kind.rank?_of_operator isOperator]
          simp
        rw [List.append_assoc, List.cons_append]
        exact (operands_completes completesTighter leftRead goesOn).trans
          (rightOperand_completes completesTighter isOperator rightRead follows left)
termination_by used.length

/-- Each level reads the expressions of its rank, if the next one is one rank tighter. -/
theorem binary_completes (completesUnary : inner.unary.Completes room unaryRank) :
    ∀ {levels : List Level}, Ascending levels →
      (binary inner levels).Completes (room + 1) (rankOf levels)
  | [], _ => unary_completes completes completesUnary
  | level :: tighter, ascending => by
      have completesTighter := binary_completes completesUnary ascending.2
      rw [ascending.1] at completesTighter
      intro expression used rest read follows
      have ran := operands_completes completesTighter read (follows.mono (Nat.le_succ _))
      rwa [Step.extendFrom_of_unselected (rightOperand?_eq_none follows)] at ran

/-- An operand that is a place, `=` and a value are read as an assignment. -/
theorem assigning_completes (completesUnary : inner.unary.Completes room unaryRank)
    {target value expression : Expr} {equals : Token} {used valueUsed rest : List Token}
    (assigned : assignment? target value = some expression)
    (read : ExprRead (room + 1) (rankOf Level.all) target used)
    (isEquals : equals.kind = .sign .equal) (valueRead : ExprRead room 0 value valueUsed)
    (follows : Follows 0 rest) :
    (assignment inner).step.run (used ++ equals :: (valueUsed ++ rest)) =
      .ok (expression, rest) := by
  have operand := binary_completes completes completesUnary ascending_all
  have ends : Follows (rankOf Level.all) (equals :: (valueUsed ++ rest)) := by
    rw [Follows.cons_iff, isEquals]
    rintro _ ⟨⟩
    exact Level.or.rank_pos
  rw [assignment, Rule.run_andThen_of_run (operand read ends),
    Step.run_bind_of_run (Step.run_accept?_of_kind isEquals _)]
  dsimp only
  rw [Step.run_bind_of_run (completes valueRead follows), assigned]
  rfl

/-- Operands and assignments to them are read where nothing goes on with them. -/
theorem assignment_completes (completesUnary : inner.unary.Completes room unaryRank) :
    (assignment inner).Completes (room + 1) 0 := by
  intro expression used rest read follows
  by_cases isOperand : 0 < expression.rank
  · have operand := binary_completes completes completesUnary ascending_all
    have operandRead : ExprRead (room + 1) (rankOf Level.all) expression used :=
      ⟨read.written, read.canonical, read.depth, isOperand⟩
    rw [assignment, Rule.run_andThen_of_run (operand operandRead (follows.mono (Nat.zero_le _))),
      Step.run_bind_of_run (Step.run_accept?_of_ne follows.ne_equal)]
    rfl
  · -- What is assigned to is a variable or an access, and it is read as an operand first.
    have tight : rankOf Level.all ≤ accessRank := by decide
    rcases read with ⟨written, canonical, depth, -⟩
    cases written with
    | @assign target equals value used isEquals written =>
        have targetRead : ExprRead (room + 1) (rankOf Level.all) (.variable target) [target] :=
          ⟨.variable target, canonical.1, Nat.succ_pos room, tight⟩
        have valueRead : ExprRead room 0 value used :=
          ⟨written, canonical.2, Nat.lt_of_succ_lt_succ depth, Nat.zero_le _⟩
        exact assigning_completes completes completesUnary rfl targetRead isEquals valueRead
          follows
    | @set holder value accessor equals used step valueUsed written stepWritten isEquals
        valueWritten =>
        rcases canonical with ⟨place, holderCanonical, stepCanonical, valueCanonical⟩
        rcases Nat.max_lt.mp depth with ⟨targetDepth, valueDepth⟩
        have targetRead : ExprRead (room + 1) (rankOf Level.all) (.get holder accessor)
            (used ++ step) :=
          ⟨.get written stepWritten, ⟨place, holderCanonical, stepCanonical⟩, targetDepth,
            tight⟩
        have valueRead : ExprRead room 0 value valueUsed :=
          ⟨valueWritten, valueCanonical, Nat.lt_of_succ_lt_succ valueDepth, Nat.zero_le _⟩
        have ran := assigning_completes completes completesUnary rfl targetRead isEquals valueRead
          follows
        simpa only [List.append_assoc, List.cons_append] using ran
    | binary => exact absurd (Level.rank_pos _) isOperand
    | unary | _ => exact absurd (Nat.succ_pos _) isOperand

end Rules

/-- The rules for operands read all that there is room for. -/
theorem operandRules_complete (room : Nat) :
    (operands room).expression.Completes room 0 ∧
      (operands room).unary.Completes room unaryRank := by
  induction room with
  | zero =>
      constructor
      · intro expression used rest read
        exact absurd read.depth (Nat.not_lt_zero _)
      · intro expression used rest read
        exact absurd read.depth (Nat.not_lt_zero _)
  | succ room ih =>
      exact ⟨assignment_completes ih.1 ih.2, unary_completes ih.1 ih.2⟩

/-- Every canonical expression that there is room for is read from the tokens that write it. -/
theorem expression_completes (room : Nat) : (expression room).Completes room 0 :=
  (operandRules_complete room).1

end Grammar

end Descriptor
