import Descriptor.Expr

/-!
# Statements

The syntax trees of statements, and the prefix notation in which they are shown.
-/

namespace Descriptor

/-- A statement. -/
inductive Stmt where
  /-- Statements in a scope of their own. -/
  | block (body : List Stmt)
  | expression (expression : Expr)
  /-- `if (condition) statement else statement` -/
  | branch (condition : Expr) (positive : Stmt) (negative : Option Stmt)
  /-- `if condition, do: expression, else: expression` -/
  | choice (condition positive : Expr) (negative : Option Expr)
  /-- `let name = initializer` -/
  | declaration (name : Token) (initializer : Option Expr)

mutual

/-- A statement in prefix notation. -/
def Stmt.print : Stmt → String
  | .block body => "(block" ++ printBody body ++ ")"
  | .expression expression => expression.print
  | .branch condition positive none =>
      "(if " ++ condition.print ++ " " ++ positive.print ++ ")"
  | .branch condition positive (some negative) =>
      "(if " ++ condition.print ++ " " ++ positive.print ++ " " ++ negative.print ++ ")"
  | .choice condition positive none =>
      "(if-do " ++ condition.print ++ " " ++ positive.print ++ ")"
  | .choice condition positive (some negative) =>
      "(if-do " ++ condition.print ++ " " ++ positive.print ++ " " ++ negative.print ++ ")"
  | .declaration name none => "(let " ++ name.lexeme ++ ")"
  | .declaration name (some initializer) =>
      "(let " ++ name.lexeme ++ " " ++ initializer.print ++ ")"

/-- The statements of a block, each with a space before it. -/
def printBody : List Stmt → String
  | [] => ""
  | statement :: body => " " ++ statement.print ++ printBody body

end

end Descriptor
