import Descriptor.Number.Decimal
import Descriptor.Text.Blank

/-!
# Numbers as text

A number is written with the fewest digits that read back as the same number.  `plain` is how a
syntax tree shows it and `write` how a value turns into text: they differ in very great and very
small magnitudes, in the sign of zero and in the names of the infinities.  `read` turns any text
into a number.
-/

namespace Descriptor.Numeral

open Binary64

/-- A text with a minus sign in front if `negative`. -/
def signed (negative : Bool) (text : List Char) : List Char :=
  if negative then '-' :: text else text

/-- A number written without an exponent.  Zero keeps its sign. -/
def plain (x : Float) : String :=
  .ofList <| match form x with
  | .nan => "NaN".toList
  | .infinite negative => signed negative "inf".toList
  | .finite negative 0 => signed negative ['0']
  | .finite negative pattern => signed negative (Decimal.shortest pattern).positional

/-- Magnitudes from `10 ^ -6` up to below `10 ^ 21` are written without an exponent. -/
def isPositional (d : Decimal) : Bool :=
  -6 < d.point && d.point ≤ 21

/-- A number as the text it converts to.  Zero has no sign. -/
def write (x : Float) : String :=
  .ofList <| match form x with
  | .nan => "NaN".toList
  | .infinite negative => signed negative "Infinity".toList
  | .finite _ 0 => ['0']
  | .finite negative pattern =>
      let decimal := Decimal.shortest pattern
      signed negative (if isPositional decimal then decimal.positional else decimal.scientific)

/-- The sign in front of a numeral, and what follows it. -/
def splitSign : List Char → Bool × List Char
  | '-' :: rest => (true, rest)
  | '+' :: rest => (false, rest)
  | text => (false, text)

/-- The number that a text converts to.  Blanks at its ends do not count, and a text of blanks is
zero.  A text that is neither a numeral nor `Infinity`, each with a sign or without, is not a
number. -/
def read (text : String) : Float :=
  match Text.trim text.toList with
  | [] => ofPattern false 0
  | trimmed =>
      let (negative, unsigned) := splitSign trimmed
      if unsigned == "Infinity".toList then ofPattern negative infinityPattern
      else match Decimal.read? unsigned with
        | some decimal => decimal.toFloat negative
        | none => nan

end Descriptor.Numeral
