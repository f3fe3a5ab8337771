import Descriptor.Proofs.Grammar.Opening

/-!
# Written programs with other tokens behind them

How a statement is written depends on what stands behind it through the next token alone.  So a
program that is written up to the end of the text is still written in front of other tokens, when
a separator is put between them.  The separator ends the last statement if nothing else does.
-/

namespace Descriptor

variable {Gap : List Token → Prop}

/-! ## What stands behind a statement -/

theorem mayEnd_of_head {behind behind' : List Token} (head : behind.head? = behind'.head?)
    (ends : mayEnd behind = true) : mayEnd behind' = true := by
  rwa [mayEnd, ← head]

theorem Terminated.of_head {terminator behind behind' : List Token}
    (terminated : Terminated terminator behind) (head : behind.head? = behind'.head?) :
    Terminated terminator behind' := by
  cases terminated with
  | separator separates => exact .separator separates
  | omitted ends => exact .omitted (mayEnd_of_head head ends)

/-- More tokens behind others are not next. -/
theorem head?_append_of_head? (used : List Token) {behind behind' : List Token}
    (head : behind.head? = behind'.head?) : (used ++ behind).head? = (used ++ behind').head? := by
  rw [List.head?_append, List.head?_append, head]

mutual

/-- A statement is written the same in front of whatever begins with the same token. -/
theorem Stmt.written_of_head :
    ∀ {statement : Stmt} {used behind behind' : List Token},
      statement.Written Gap used behind → behind.head? = behind'.head? →
        statement.Written Gap used behind'
  | _, _, _, _, .block opens written closes, _ =>
      .block opens (bodyWritten_of_head written rfl) closes
  | _, _, _, _, .expression written terminated, head =>
      .expression written (terminated.of_head head)
  | _, _, _, _, .branch isIf opens conditionWritten closes separators written, head =>
      .branch isIf opens conditionWritten closes separators (Stmt.written_of_head written head)
  | _, _, _, _, .branchElse isIf opens conditionWritten closes separators
      written separatorsBefore isElse separatorsAfter negativeWritten, head =>
      .branchElse isIf opens conditionWritten closes separators
        (Stmt.written_of_head written (head?_append_of_head? _ rfl)) separatorsBefore isElse
        separatorsAfter (Stmt.written_of_head negativeWritten head)
  | _, _, _, _, .choice isIf conditionWritten isComma isDo isColon written terminated, head =>
      .choice isIf conditionWritten isComma isDo isColon written (terminated.of_head head)
  | _, _, _, _, .choiceElse isIf conditionWritten isComma isDo isColon written isSecondComma
      isElse isSecondColon negativeWritten terminated, head =>
      .choiceElse isIf conditionWritten isComma isDo isColon written isSecondComma isElse
        isSecondColon negativeWritten (terminated.of_head head)
  | _, _, _, _, .declaration isLet terminated, head =>
      .declaration isLet (terminated.of_head head)
  | _, _, _, _, .initialized isLet isEquals written terminated, head =>
      .initialized isLet isEquals written (terminated.of_head head)

/-- Statements are written the same in front of whatever begins with the same token. -/
theorem bodyWritten_of_head :
    ∀ {body : List Stmt} {used behind behind' : List Token},
      BodyWritten Gap body used behind → behind.head? = behind'.head? →
        BodyWritten Gap body used behind'
  | _, _, _, _, .nil between, _ => .nil between
  | _, _, _, _, .cons between written bodyWritten, head =>
      .cons between (Stmt.written_of_head written (head?_append_of_head? _ head))
        (bodyWritten_of_head bodyWritten head)

end

/-! ## A separator behind a program -/

section Separator

variable {separator : Token} (separates : separator.isSeparator = true) (behind : List Token)
include separates

/-- What ends a statement at the end of the text does so in front of a separator, which is the end
if there was none. -/
theorem Terminated.or_append {terminator : List Token} (terminated : Terminated terminator []) :
    Terminated terminator (separator :: behind) ∨
      Terminated (terminator ++ [separator]) behind := by
  cases terminated with
  | separator separates => exact .inl (.separator separates)
  | omitted => exact .inr (.separator separates)

/-- A statement that is written at the end of the text is written in front of a separator, or
together with it. -/
theorem Stmt.written_or_append :
    ∀ {statement : Stmt} {used : List Token}, statement.Written Gap used [] →
      statement.Written Gap used (separator :: behind) ∨
        statement.Written Gap (used ++ [separator]) behind
  | _, _, .block opens written closes =>
      .inl (.block opens (bodyWritten_of_head written rfl) closes)
  | _, _, .expression written terminated => by
      rw [List.append_assoc]
      exact (terminated.or_append separates behind).imp (.expression written)
        (.expression written)
  | _, _, .branch isIf opens conditionWritten closes separators written => by
      simp only [List.cons_append, List.append_assoc]
      exact (Stmt.written_or_append written).imp
        (.branch isIf opens conditionWritten closes separators)
        (.branch isIf opens conditionWritten closes separators)
  | _, _, .branchElse isIf opens conditionWritten closes separators written separatorsBefore
      isElse separatorsAfter negativeWritten => by
      simp only [List.cons_append, List.append_assoc]
      rcases Stmt.written_or_append negativeWritten with negativeWritten | negativeWritten
      · exact .inl (.branchElse isIf opens conditionWritten closes separators
          (Stmt.written_of_head written (head?_append_of_head? _ rfl)) separatorsBefore isElse
          separatorsAfter negativeWritten)
      · exact .inr (.branchElse isIf opens conditionWritten closes separators
          (Stmt.written_of_head written (head?_append_of_head? _ rfl)) separatorsBefore isElse
          separatorsAfter negativeWritten)
  | _, _, .choice isIf conditionWritten isComma isDo isColon written terminated => by
      simp only [List.cons_append, List.append_assoc]
      exact (terminated.or_append separates behind).imp
        (.choice isIf conditionWritten isComma isDo isColon written)
        (.choice isIf conditionWritten isComma isDo isColon written)
  | _, _, .choiceElse isIf conditionWritten isComma isDo isColon written isSecondComma isElse
      isSecondColon negativeWritten terminated => by
      simp only [List.cons_append, List.append_assoc]
      exact (terminated.or_append separates behind).imp
        (.choiceElse isIf conditionWritten isComma isDo isColon written isSecondComma isElse
          isSecondColon negativeWritten)
        (.choiceElse isIf conditionWritten isComma isDo isColon written isSecondComma isElse
          isSecondColon negativeWritten)
  | _, _, .declaration isLet terminated => by
      simp only [List.cons_append]
      exact (terminated.or_append separates behind).imp (.declaration isLet)
        (.declaration isLet)
  | _, _, .initialized isLet isEquals written terminated => by
      simp only [List.cons_append, List.append_assoc]
      exact (terminated.or_append separates behind).imp (.initialized isLet isEquals written)
        (.initialized isLet isEquals written)

omit separates in
/-- Statements that are written by no token are none. -/
theorem eq_nil_of_bodyWritten {body : List Stmt} (written : BodyWritten Gap body [] behind)
    (canonical : CanonicalBody body) : body = [] := by
  generalize empty : ([] : List Token) = used at written
  cases written with
  | nil => rfl
  | cons _ written _ =>
      rcases Stmt.exists_opens written canonical.1 with ⟨token, tail, rfl, -⟩
      simp at empty

/-- A program that is written up to the end of the text is written together with a separator. -/
theorem bodyWritten_append_separator {body : List Stmt} {used : List Token}
    (written : BodyWritten Separators body used []) (canonical : CanonicalBody body) :
    BodyWritten Separators body (used ++ [separator]) behind := by
  induction body generalizing used with
  | nil =>
      cases written with
      | nil separators =>
          refine .nil fun token member => ?_
          rcases List.mem_append.mp member with inGap | isSeparator
          · exact separators token inGap
          · rwa [List.mem_singleton.mp isSeparator]
  | cons statement body ih =>
      cases written with
      | @cons _ _ gap used others _ between written bodyWritten =>
          have later := ih bodyWritten canonical.2
          rw [List.append_assoc, List.append_assoc]
          cases others with
          | cons token others => exact .cons between (Stmt.written_of_head written rfl) later
          | nil =>
              rcases Stmt.written_or_append separates behind written with inFront | together
              · exact .cons between inFront later
              · -- The last statement takes the separator, and nothing is left behind it.
                have none := eq_nil_of_bodyWritten [] bodyWritten canonical.2
                subst none
                have empty : Separators [] := List.forall_mem_nil _
                simpa using BodyWritten.cons between together (.nil empty)

end Separator

end Descriptor
