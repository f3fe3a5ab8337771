import Descriptor.Proofs.Grammar.Success

/-!
# What is read as an expression

Every expression that the grammar reads is written by the tokens that were read, it is canonical,
and it is no deeper than there was room for.  The proof goes along the rules: each rule gives this
if the rules one level deeper do.
-/

namespace Descriptor

/-! ## Items -/

namespace Items

variable {α : Type} {Item Other : α → List Token → Prop} {list : List α} {used : List Token}

theorem imp (items : Items Item list used)
    (weaken : ∀ a ∈ list, ∀ used, Item a used → Other a used) : Items Other list used := by
  induction items with
  | nil => exact .nil
  | last item separators =>
      exact .last (weaken _ List.mem_cons_self _ item) separators
  | more item separators isComma separatorsBehind _ ih =>
      apply Items.more (weaken _ List.mem_cons_self _ item) separators isComma separatorsBehind
      exact ih fun a member => weaken a (List.mem_cons_of_mem _ member)

theorem exists_of_mem (items : Items Item list used) : ∀ a ∈ list, ∃ used, Item a used := by
  induction items with
  | nil => simp
  | last item _ => simpa using ⟨_, item⟩
  | more item _ _ _ _ ih => exact List.forall_mem_cons.mpr ⟨⟨_, item⟩, ih⟩

end Items

namespace Grammar

/-! ## Repetition -/

/-- What holds of the first value and what each extension keeps holds of the last value. -/
theorem Step.extendFrom_reads {α : Type} {select : Token → Option (α → Step α)}
    {Read : α → List Token → Prop}
    (extending : ∀ {token next a before tokens b rest}, select token = some next → Read a before →
      (next a).run tokens = .ok (b, rest) →
        ∃ used, tokens = used ++ rest ∧ Read b (before ++ token :: used))
    {a b : α} {before tokens rest : List Token} (read : Read a before)
    (done : Step.extendFrom select a tokens = .ok (b, rest)) :
    ∃ used, tokens = used ++ rest ∧ Read b (before ++ used) := by
  fun_induction Step.extendFrom select a tokens generalizing before with
  | case1 a =>
      cases done
      exact ⟨[], rfl, by simpa using read⟩
  | case2 a token tokens =>
      cases done
      exact ⟨[], rfl, by simpa using read⟩
  | case3 a token tokens next selected c left extended ih =>
      rcases extending selected read extended with ⟨used, rfl, readNext⟩
      rcases ih readNext done with ⟨more, rfl, readLast⟩
      exact ⟨token :: (used ++ more), by simp, by simpa using readLast⟩
  | case4 => contradiction

/-- What an item rule reads: an item and separators, and a comma with separators behind it unless
the next token closes the list or no item may follow. -/
def ItemRead {α : Type} (Item : α → List Token → Prop) (closes : Token → Bool)
    (item : Rule (α × Bool)) : Prop :=
  ∀ ⦃tokens a more rest⦄, item.step.run tokens = .ok ((a, more), rest) →
    ∃ used gap, Item a used ∧ Separators gap ∧
      ((tokens = used ++ (gap ++ rest) ∧ (more = true → ∃ token ∈ rest.head?, closes token)) ∨
        ∃ comma behind, comma.kind = .sign .comma ∧ Separators behind ∧
          tokens = used ++ (gap ++ comma :: (behind ++ rest)))

theorem Step.itemsFrom_of_closes {α : Type} {item : Rule (α × Bool)} {closes : Token → Bool}
    {tokens : List Token} (closed : ∃ token ∈ tokens.head?, closes token) :
    Step.itemsFrom item closes tokens = .ok ([], tokens) := by
  cases tokens with
  | nil => simp at closed
  | cons token tokens =>
      have : closes token = true := by simpa using closed
      rw [Step.itemsFrom, if_pos this]

/-- Items that are read are written as a list of items. -/
theorem Step.itemsFrom_reads {α : Type} {Item : α → List Token → Prop} {closes : Token → Bool}
    {item : Rule (α × Bool)} (reads : ItemRead Item closes item) {tokens rest : List Token}
    {list : List α} (done : Step.itemsFrom item closes tokens = .ok (list, rest)) :
    ∃ used, tokens = used ++ rest ∧ Items Item list used := by
  fun_induction Step.itemsFrom item closes tokens generalizing list rest with
  | case1 =>
      cases done
      exact ⟨[], rfl, .nil⟩
  | case2 =>
      cases done
      exact ⟨[], rfl, .nil⟩
  | case3 => contradiction
  | case4 token tokens _ a left ran =>
      cases done
      obtain ⟨used, gap, isItem, separators, ⟨same, -⟩ | ⟨comma, behind, isComma, more, same⟩⟩ :=
        reads ran
      · exact ⟨used ++ gap, by simp [same], .last isItem separators⟩
      · exact ⟨used ++ (gap ++ comma :: (behind ++ [])), by simp [same],
          .more isItem separators isComma more .nil⟩
  | case5 token tokens _ a left ran items after again ih =>
      cases done
      obtain ⟨used, gap, isItem, separators,
        ⟨same, closed⟩ | ⟨comma, behind, isComma, more, same⟩⟩ := reads ran
      · rw [Step.itemsFrom_of_closes (closed rfl)] at again
        cases again
        exact ⟨used ++ gap, by simp [same], .last isItem separators⟩
      · rcases ih again with ⟨others, rfl, isItems⟩
        exact ⟨used ++ (gap ++ comma :: (behind ++ others)), by simp [same],
          .more isItem separators isComma more isItems⟩
  | case6 => contradiction

/-! ## Expressions -/

/-- An expression that may be built where fewer than `limit` levels can be opened inside it, and
the tokens that write it. -/
structure ExprRead (limit rank : Nat) (expression : Expr) (used : List Token) : Prop where
  written : expression.Written used
  canonical : expression.Canonical
  depth : expression.depth < limit
  rank : rank ≤ expression.rank

/-- Whatever the rule reads is an expression of at least the given rank. -/
def Rule.Reads (rule : Rule Expr) (limit rank : Nat) : Prop :=
  ∀ ⦃tokens rest expression⦄, rule.step.run tokens = .ok (expression, rest) →
    ∃ used, tokens = used ++ rest ∧ ExprRead limit rank expression used

theorem ExprRead.mono {limit rank lower : Nat} {expression : Expr} {used : List Token}
    (read : ExprRead limit rank expression used) (le : lower ≤ rank) :
    ExprRead limit lower expression used :=
  ⟨read.written, read.canonical, read.depth, Nat.le_trans le read.rank⟩

theorem Rule.Reads.mono {rule : Rule Expr} {limit rank lower : Nat}
    (reads : rule.Reads limit rank) (le : lower ≤ rank) : rule.Reads limit lower := by
  intro tokens rest expression done
  rcases reads done with ⟨used, same, read⟩
  exact ⟨used, same, read.mono le⟩

section Rules

variable {inner : Operands} {room : Nat} (reads : inner.expression.Reads room 0)
include reads

theorem parenthesized_reads {opening : Token} {tokens rest : List Token} {expression : Expr}
    (opens : opening.kind = .sign .leftParen)
    (done : (parenthesized inner).run tokens = .ok (expression, rest)) :
    ∃ used, opening :: tokens = used ++ rest ∧
      ExprRead (room + 1) accessRank expression used := by
  simp only [parenthesized, Step.run_bind_eq_ok_iff, Step.run_pure_eq_ok_iff,
    Rule.run_expect_eq_ok_iff] at done
  rcases done with ⟨inside, _, ran, closing, _, ⟨closes, rfl⟩, rfl, rfl⟩
  rcases reads ran with ⟨used, rfl, read⟩
  exact ⟨opening :: (used ++ [closing]), by simp, .group opens read.written closes,
    read.canonical, Nat.succ_lt_succ read.depth, Nat.le_refl _⟩

theorem arrayElement_reads :
    ItemRead (ExprRead room 0) (·.kind == .sign .rightBracket) (arrayElement inner) := by
  intro tokens element more rest done
  simp only [arrayElement, Rule.run_andThen_eq_ok_iff, Step.run_bind_eq_ok_iff,
    Step.run_skipSeparators_eq_ok_iff] at done
  rcases done with ⟨_, behind, ran, _, _, rfl, accepted, left, accepting, done⟩
  rcases reads ran with ⟨used, rfl, read⟩
  rcases exists_separators_append_dropWhile behind with ⟨gap, separators, whole⟩
  rcases Step.run_accept?_eq_ok_iff.mp accepting with
    ⟨comma, rfl, isComma, start⟩ | ⟨rfl, -, rfl⟩
  · simp only [Step.run_bind_eq_ok_iff, Step.run_skipSeparators_eq_ok_iff,
      Step.run_pure_eq_ok_iff, Prod.mk.injEq] at done
    rcases done with ⟨_, _, rfl, ⟨rfl, rfl⟩, rfl⟩
    rcases exists_separators_append_dropWhile left with ⟨afterComma, separatorsBehind, wholeBehind⟩
    refine ⟨used, gap, read, separators, .inr ⟨comma, afterComma, isComma, separatorsBehind, ?_⟩⟩
    rw [← wholeBehind, ← start, ← whole]
  · simp only [Step.run_pure_eq_ok_iff, Prod.mk.injEq] at done
    rcases done with ⟨⟨rfl, rfl⟩, rfl⟩
    exact ⟨used, gap, read, separators, .inl ⟨by rw [← whole], by simp⟩⟩

theorem array_reads {opening : Token} {tokens rest : List Token} {expression : Expr}
    (opens : opening.kind = .sign .leftBracket)
    (done : (array inner).run tokens = .ok (expression, rest)) :
    ∃ used, opening :: tokens = used ++ rest ∧
      ExprRead (room + 1) accessRank expression used := by
  simp only [array, Step.run_bind_eq_ok_iff, Step.run_skipSeparators_eq_ok_iff,
    Step.run_pure_eq_ok_iff, Rule.run_expect_eq_ok_iff] at done
  rcases done with ⟨_, _, rfl, elements, _, ran, closing, _, ⟨closes, rfl⟩, rfl, rfl⟩
  rcases exists_separators_append_dropWhile tokens with ⟨gap, separators, whole⟩
  rcases Step.itemsFrom_reads (arrayElement_reads reads) ran with ⟨used, same, items⟩
  refine ⟨opening :: (gap ++ (used ++ [closing])), ?_, ?_, ?_, ?_, Nat.le_refl _⟩
  · rw [whole, same]
    simp
  · exact .array opens separators (items.imp fun _ _ _ read => read.written) closes
  · apply canonicalElements_iff.mpr
    intro element member
    rcases items.exists_of_mem element member with ⟨_, read⟩
    exact read.canonical
  · apply Nat.lt_succ_of_le
    apply depthOfElements_le_iff.mpr
    intro element member
    rcases items.exists_of_mem element member with ⟨_, read⟩
    exact read.depth

/-- A property that may be built where fewer than `room` levels can be opened. -/
structure PropertyRead (room : Nat) (property : Token × Expr) (used : List Token) : Prop where
  written : PropertyWritten property used
  isName : property.1.kind = .identifier
  canonical : property.2.Canonical
  depth : property.2.depth < room

theorem objectProperty_reads :
    ItemRead (PropertyRead room) (·.kind == .sign .rightBrace) (objectProperty inner) := by
  intro tokens property more rest done
  simp only [objectProperty, Rule.run_andThen_eq_ok_iff, Step.run_bind_eq_ok_iff,
    Step.run_skipSeparators_eq_ok_iff, Rule.run_expect_eq_ok_iff,
    Step.run_next?_eq_ok_iff] at done
  obtain ⟨name, _, ⟨isName, rfl⟩, colon, _, ⟨isColon, rfl⟩, value, behind, ran, _, _, rfl, _, _,
    ⟨rfl, rfl⟩, done⟩ := done
  rcases reads ran with ⟨used, rfl, read⟩
  rcases exists_separators_append_dropWhile behind with ⟨gap, separators, whole⟩
  have isProperty : PropertyRead room (name, value) (name :: colon :: used) :=
    ⟨.property isColon read.written, isName, read.canonical, read.depth⟩
  split at done
  · rename_i closed
    simp only [Step.run_pure_eq_ok_iff, Prod.mk.injEq] at done
    rcases done with ⟨⟨rfl, rfl⟩, rfl⟩
    refine ⟨_, gap, isProperty, separators, .inl ⟨?_, fun _ => ?_⟩⟩
    · simp [← whole]
    · simpa [Option.any_eq_true] using closed
  · simp only [Step.run_bind_eq_ok_iff, Step.run_skipSeparators_eq_ok_iff,
      Rule.run_expect_eq_ok_iff, Step.run_pure_eq_ok_iff, Prod.mk.injEq] at done
    rcases done with ⟨comma, left, ⟨isComma, start⟩, _, _, rfl, ⟨rfl, rfl⟩, rfl⟩
    rcases exists_separators_append_dropWhile left with ⟨afterComma, separatorsBehind, wholeBehind⟩
    refine ⟨_, gap, isProperty, separators,
      .inr ⟨comma, afterComma, isComma, separatorsBehind, ?_⟩⟩
    rw [← wholeBehind, ← start, ← whole]
    simp

theorem object_reads {percent : Token} {tokens rest : List Token} {expression : Expr}
    (isPercent : percent.kind = .sign .percent)
    (done : (object inner).run tokens = .ok (expression, rest)) :
    ∃ used, percent :: tokens = used ++ rest ∧
      ExprRead (room + 1) accessRank expression used := by
  simp only [object, Step.run_bind_eq_ok_iff, Step.run_skipSeparators_eq_ok_iff,
    Step.run_pure_eq_ok_iff, Rule.run_expect_eq_ok_iff] at done
  obtain ⟨opening, behind, ⟨opens, rfl⟩, _, _, rfl, properties, _, ran, closing, _,
    ⟨closes, rfl⟩, rfl, rfl⟩ := done
  rcases exists_separators_append_dropWhile behind with ⟨gap, separators, whole⟩
  rcases Step.itemsFrom_reads (objectProperty_reads reads) ran with ⟨used, same, items⟩
  refine ⟨percent :: opening :: (gap ++ (used ++ [closing])), ?_, ?_, ?_, ?_, Nat.le_refl _⟩
  · rw [whole, same]
    simp
  · exact .object isPercent opens separators (items.imp fun _ _ _ read => read.written) closes
  · apply canonicalProperties_iff.mpr
    intro property member
    rcases items.exists_of_mem property member with ⟨_, read⟩
    exact ⟨read.isName, read.canonical⟩
  · apply Nat.lt_succ_of_le
    apply depthOfProperties_le_iff.mpr
    intro property member
    rcases items.exists_of_mem property member with ⟨_, read⟩
    exact read.depth

omit reads in
/-- A single token is read as the leaf it stands for. -/
theorem leaf_reads {token : Token} {leaf : Expr} (isLeaf : Expr.leaf? token = some leaf) :
    ExprRead (room + 1) accessRank leaf [token] := by
  have isLiteral : ∀ value, leaf = .literal value →
      ExprRead (room + 1) accessRank leaf [token] := by
    rintro value rfl
    exact ⟨.literal isLeaf, trivial, Nat.succ_pos room, Nat.le_refl _⟩
  unfold Expr.leaf? at isLeaf
  split at isLeaf
  case h_7 isName =>
    cases isLeaf
    exact ⟨.variable token, isName, Nat.succ_pos room, Nat.le_refl _⟩
  case h_8 => contradiction
  all_goals
    cases isLeaf
    exact isLiteral _ rfl

theorem primary_reads : (primary inner).Reads (room + 1) accessRank := by
  intro tokens rest expression done
  rcases Rule.run_byToken_eq_ok_iff.mp done with
    ⟨token, behind, next, rfl, selected, ran⟩ | ⟨_, failed⟩
  · split at selected
    · rename_i opens
      cases selected
      exact parenthesized_reads reads opens ran
    · rename_i opens
      cases selected
      exact array_reads reads opens ran
    · rename_i isPercent
      cases selected
      exact object_reads reads isPercent ran
    · rcases Option.map_eq_some_iff.mp selected with ⟨leaf, isLeaf, rfl⟩
      rcases Step.run_pure_eq_ok_iff.mp ran with ⟨rfl, rfl⟩
      exact ⟨[token], rfl, leaf_reads isLeaf⟩
  · exact absurd failed Rule.run_fail_ne_ok

/-- An access step extends what it is applied to. -/
theorem access_reads {token : Token} {next : Expr → Step Expr} {object expression : Expr}
    {before tokens rest : List Token} (selected : access? inner token = some next)
    (read : ExprRead (room + 1) accessRank object before)
    (ran : (next object).run tokens = .ok (expression, rest)) :
    ∃ used, tokens = used ++ rest ∧
      ExprRead (room + 1) accessRank expression (before ++ token :: used) := by
  unfold access? at selected
  split at selected
  · rename_i isDot
    cases selected
    simp only [Step.run_bind_eq_ok_iff, Rule.run_expect_eq_ok_iff,
      Step.run_pure_eq_ok_iff] at ran
    rcases ran with ⟨name, _, ⟨isName, rfl⟩, rfl, rfl⟩
    exact ⟨[name], rfl, .get read.written (.field isDot), ⟨read.rank, read.canonical, isName⟩,
      by simpa [Expr.depth, Accessor.depth] using read.depth, Nat.le_refl _⟩
  · rename_i opens
    cases selected
    simp only [Step.run_bind_eq_ok_iff, Rule.run_expect_eq_ok_iff,
      Step.run_pure_eq_ok_iff] at ran
    rcases ran with ⟨index, _, indexRan, closing, _, ⟨closes, rfl⟩, rfl, rfl⟩
    rcases reads indexRan with ⟨used, rfl, indexRead⟩
    exact ⟨used ++ [closing], by simp, .get read.written (.element indexRead.written closes),
      ⟨read.rank, read.canonical, opens, indexRead.canonical⟩,
      max_lt read.depth (Nat.succ_lt_succ indexRead.depth), Nat.le_refl _⟩
  · contradiction

theorem accesses_reads : (accesses inner).Reads (room + 1) accessRank := by
  intro tokens rest expression done
  rcases Rule.run_andThen_eq_ok_iff.mp done with ⟨first, _, ran, extended⟩
  rcases primary_reads reads ran with ⟨used, rfl, read⟩
  obtain ⟨more, rfl, readLast⟩ :=
    Step.extendFrom_reads (fun selected => access_reads reads selected) read extended
  exact ⟨used ++ more, by simp, readLast⟩

theorem unary_reads (readsUnary : inner.unary.Reads room unaryRank) :
    (unary inner).Reads (room + 1) unaryRank := by
  intro tokens rest expression done
  rcases Rule.run_byToken_eq_ok_iff.mp done with
    ⟨token, behind, next, rfl, selected, ran⟩ | ⟨_, ran⟩
  · rcases Option.map_eq_some_iff.mp selected with ⟨operator, isOperator, rfl⟩
    simp only [Step.run_bind_eq_ok_iff, Step.run_pure_eq_ok_iff] at ran
    rcases ran with ⟨right, _, ran, rfl, rfl⟩
    rcases readsUnary ran with ⟨used, rfl, read⟩
    exact ⟨token :: used, rfl, .unary read.written, ⟨isOperator, read.rank, read.canonical⟩,
      Nat.succ_lt_succ read.depth, Nat.le_refl _⟩
  · exact (accesses_reads reads).mono (by decide) ran

omit reads in
/-- An operator of a level and its right operand extend a left operand of the level. -/
theorem rightOperand_reads {level : Level} {tighter : Rule Expr}
    (readsTighter : tighter.Reads (room + 1) (level.rank + 1)) {token : Token}
    {next : Expr → Step Expr} {left expression : Expr} {before tokens rest : List Token}
    (selected : rightOperand? level tighter token = some next)
    (read : ExprRead (room + 1) level.rank left before)
    (ran : (next left).run tokens = .ok (expression, rest)) :
    ∃ used, tokens = used ++ rest ∧
      ExprRead (room + 1) level.rank expression (before ++ token :: used) := by
  rcases Option.map_eq_some_iff.mp selected with ⟨operator, filtered, rfl⟩
  rcases Option.filter_eq_some_iff.mp filtered with ⟨isOperator, sameLevel⟩
  obtain rfl : operator.level = level := by simpa using sameLevel
  simp only [Step.run_bind_eq_ok_iff, Step.run_pure_eq_ok_iff] at ran
  rcases ran with ⟨right, _, ran, rfl, rfl⟩
  rcases readsTighter ran with ⟨used, rfl, rightRead⟩
  exact ⟨used, rfl, .binary read.written rightRead.written,
    ⟨isOperator, read.rank, rightRead.rank, read.canonical, rightRead.canonical⟩,
    max_lt read.depth rightRead.depth, Nat.le_refl _⟩

/-- Each level reads expressions of its rank, if the next one is one rank tighter. -/
theorem binary_reads (readsUnary : inner.unary.Reads room unaryRank) :
    ∀ {levels : List Level}, Ascending levels →
      (binary inner levels).Reads (room + 1) (rankOf levels)
  | [], _ => unary_reads reads readsUnary
  | level :: tighter, ascending => by
      have readsTighter := binary_reads readsUnary ascending.2
      rw [ascending.1] at readsTighter
      intro tokens rest expression done
      rcases Rule.run_andThen_eq_ok_iff.mp done with ⟨first, _, ran, extended⟩
      rcases readsTighter ran with ⟨used, rfl, read⟩
      obtain ⟨more, rfl, readLast⟩ :=
        Step.extendFrom_reads (fun selected => rightOperand_reads readsTighter selected)
          (read.mono (Nat.le_succ level.rank)) extended
      exact ⟨used ++ more, by simp, readLast⟩

theorem assignment_reads (readsUnary : inner.unary.Reads room unaryRank) :
    (assignment inner).Reads (room + 1) 0 := by
  intro tokens rest expression done
  rcases Rule.run_andThen_eq_ok_iff.mp done with ⟨target, behind, ran, assigning⟩
  rcases binary_reads reads readsUnary ascending_all ran with ⟨used, rfl, read⟩
  simp only [Step.run_bind_eq_ok_iff] at assigning
  rcases assigning with ⟨accepted, left, accepting, choosing⟩
  rcases Step.run_accept?_eq_ok_iff.mp accepting with
    ⟨equals, rfl, isEquals, rfl⟩ | ⟨rfl, -, rfl⟩
  · simp only [Step.run_bind_eq_ok_iff] at choosing
    rcases choosing with ⟨value, _, valueRan, building⟩
    rcases reads valueRan with ⟨valueUsed, rfl, valueRead⟩
    split at building
    · rename_i assigned
      rcases Step.run_pure_eq_ok_iff.mp building with ⟨rfl, rfl⟩
      refine ⟨used ++ equals :: valueUsed, by simp, ?_⟩
      unfold assignment? at assigned
      split at assigned
      · rename_i name
        cases assigned
        cases read.written
        exact ⟨.assign isEquals valueRead.written, ⟨read.canonical, valueRead.canonical⟩,
          Nat.succ_lt_succ valueRead.depth, Nat.zero_le _⟩
      · rename_i object accessor
        cases assigned
        rcases read.canonical with ⟨place, objectCanonical, stepCanonical⟩
        cases read.written with
        | get written stepWritten =>
            refine ⟨?_, ⟨place, objectCanonical, stepCanonical, valueRead.canonical⟩,
              max_lt read.depth (Nat.succ_lt_succ valueRead.depth), Nat.zero_le _⟩
            rw [List.append_assoc]
            exact .set written stepWritten isEquals valueRead.written
      · contradiction
    · exact absurd building Step.run_failAt_ne_ok
  · rcases Step.run_pure_eq_ok_iff.mp choosing with ⟨rfl, rfl⟩
    exact ⟨used, rfl, read.mono (Nat.zero_le _)⟩

end Rules

/-- The rules for operands read what there is room for. -/
theorem operands_reads (room : Nat) :
    (operands room).expression.Reads room 0 ∧ (operands room).unary.Reads room unaryRank := by
  induction room with
  | zero =>
      constructor
      · intro tokens rest expression failed
        exact absurd failed Rule.run_fail_ne_ok
      · intro tokens rest expression failed
        exact absurd failed Rule.run_fail_ne_ok
  | succ room ih =>
      exact ⟨assignment_reads ih.1 ih.2, unary_reads ih.1 ih.2⟩

/-- Whatever is read as an expression is canonical and written by the tokens that were read. -/
theorem expression_reads (room : Nat) : (expression room).Reads room 0 :=
  (operands_reads room).1

end Grammar

end Descriptor
