import Descriptor.Token

/-!
# Faults

What can be wrong with a descriptor when it is read, and with an operation when it runs.  A fault
names its cause.  Where it stands is added by the diagnostic that reports it, and its wording is
given by `message` alone.
-/

namespace Descriptor

/-- Faults found while the text is cut into tokens. -/
inductive ScanFault where
  /-- The text ended before the closing quote. -/
  | unterminatedString
  /-- A second dot in a number. -/
  | extraDecimalPoint
  /-- A letter or underscore right behind a number. -/
  | letterAfterNumber
  /-- A character no token begins with. -/
  | unknownCharacter (character : Char)
  deriving Repr, DecidableEq

/-- The statements that a separator ends. -/
inductive Ending where
  | declaration
  | conditional
  | expression
  deriving Repr, DecidableEq

/-- Faults found while tokens are put together into trees. -/
inductive ParseFault where
  | expectedExpression
  | invalidAssignmentTarget
  | unterminatedParenthesis
  | expectedPropertyName
  | unterminatedIndex
  | unterminatedArray
  | expectedObjectBrace
  | expectedObjectKey
  | expectedObjectColon
  | expectedObjectComma
  | unterminatedObject
  | unterminatedBlock
  | expectedVariableName
  | expectedSeparator (behind : Ending)
  | unterminatedCondition
  | expectedConditionComma
  | expectedDo
  | expectedDoColon
  | expectedElse
  | expectedElseColon
  | tooDeeplyNested
  deriving Repr, DecidableEq

/-- Faults of single operations while a descriptor runs.  None of them ends the run. -/
inductive RuntimeFault where
  /-- No frame binds the name. -/
  | undefinedVariable (name : String)
  /-- Assignment to a variable of a readonly frame. -/
  | readonly (name : String)
  /-- A write into a container that was reached through a readonly frame. -/
  | readonlyUpdate
  /-- A property of a value that is not a container. -/
  | propertyDoesNotExist
  /-- An array index that is not a natural number in range. -/
  | invalidIndex
  /-- An array index too far behind the last element. -/
  | indexTooFar (index : Nat)
  deriving Repr, DecidableEq

namespace ScanFault

/-- The wording of a scan fault. -/
def message : ScanFault → String
  | .unterminatedString => "Unterminated string"
  | .extraDecimalPoint => "You can only have one '.' in a decimal number"
  | .letterAfterNumber => "An alpha character cannot immediately follow a number"
  | .unknownCharacter character => "Unknown token starting with " ++ character.toString

end ScanFault

/-- What the missing separator should have ended. -/
def Ending.text : Ending → String
  | .declaration => "a variable declaration"
  | .conditional => "an if expression statement"
  | .expression => "an expression"

namespace ParseFault

/-- The wording of a parse fault. -/
def message : ParseFault → String
  | .expectedExpression => "Expect expression."
  | .invalidAssignmentTarget => "Invalid assignment target."
  | .unterminatedParenthesis => "Expected a ')' after the expression."
  | .expectedPropertyName => "Expect a property name after `.`."
  | .unterminatedIndex => "Expect `]` after index."
  | .unterminatedArray => "Expect `]` after array elements."
  | .expectedObjectBrace => "Expect `\x7b` to start object."
  | .expectedObjectKey => "Expected a property name."
  | .expectedObjectColon => "Expected a `:` after a property name."
  | .expectedObjectComma => "Expect `,` between object properties."
  | .unterminatedObject => "Expect `\x7d` after object."
  | .unterminatedBlock => "Expect `\x7d` after block."
  | .expectedVariableName => "Expect a variable name."
  | .expectedSeparator behind => "Expect a `\\n` after " ++ behind.text ++ "."
  | .unterminatedCondition => "Expect `)` after if condition."
  | .expectedConditionComma => "Expect `,` after if condition."
  | .expectedDo => "Expect `do` after if expression condition."
  | .expectedDoColon => "Expect `:` after do."
  | .expectedElse => "Expect `else` after `,` in if expression."
  | .expectedElseColon => "Expect `:` after else."
  | .tooDeeplyNested => "Descriptor nested too deeply."

end ParseFault

namespace RuntimeFault

/-- The wording of a runtime fault. -/
def message : RuntimeFault → String
  | .undefinedVariable name => "Undefined variable " ++ name ++ "."
  | .readonly name => name ++ " is readonly."
  | .readonlyUpdate => "Trying to update a readonly variable."
  | .propertyDoesNotExist => "Property does not exist."
  | .invalidIndex => "Array index must be a non-negative integer."
  | .indexTooFar index =>
      "Array index " ++ toString index ++ " is too far past the end of the array."

end RuntimeFault

/-! ## Diagnostics -/

/-- A message with the line it refers to. -/
def atLine (line : Nat) (message : String) : String :=
  "line " ++ toString line ++ ": " ++ message

/-- What kept a descriptor from being compiled. -/
inductive CompileFault where
  | scan (fault : ScanFault)
  | parse (fault : ParseFault)
  deriving Repr, DecidableEq

/-- The wording of a compile fault. -/
def CompileFault.message : CompileFault → String
  | .scan fault => fault.message
  | .parse fault => fault.message

/-- A compile fault, the line it stands on and the text it is about. -/
structure CompileError where
  line : Nat
  fault : CompileFault
  text : String
  deriving Repr, DecidableEq

/-- The line and the wording of a compile error. -/
def CompileError.message (error : CompileError) : String :=
  atLine error.line error.fault.message

/-- A runtime fault and the token of the operation that met it. -/
structure RuntimeError where
  token : Token
  fault : RuntimeFault
  deriving DecidableEq

/-- The line and the wording of a runtime error. -/
def RuntimeError.message (error : RuntimeError) : String :=
  atLine error.token.line error.fault.message

end Descriptor
