/-!
# Binary64 numbers as whole numbers of units

Every finite binary64 magnitude is a whole number of units of `2 ^ -1074`, the least positive
one.  Magnitudes are numbered by their bit patterns without the sign: the patterns below
`2 ^ 53` count the units themselves, and from there on the distance between neighbours doubles
every `2 ^ 52` patterns.

`units` gives the magnitude of a pattern and `nearestPattern` the pattern nearest to a quotient,
both in exact arithmetic on natural numbers.
-/

namespace Descriptor.Binary64

/-- How many units make one. -/
def unitsPerOne : Nat := Nat.pow 2 1074

/-- How many patterns share one distance to the next. -/
def patternsPerStep : Nat := Nat.pow 2 52

/-- The pattern of infinity.  Those below it are finite. -/
def infinityPattern : Nat := 2047 * patternsPerStep

/-- The bit that makes a number negative. -/
def signBit : Nat := Nat.pow 2 63

/-- The magnitude with the given pattern, in units. -/
def units (pattern : Nat) : Nat :=
  if pattern < patternsPerStep then pattern
  else (patternsPerStep + pattern % patternsPerStep) * Nat.pow 2 (pattern / patternsPerStep - 1)

/-- The pattern of the magnitude nearest to `numerator / denominator` units.  Half-way between
two neighbours the even pattern is taken, and from half-way beyond the last finite magnitude on
the result is infinity. -/
def nearestPattern (numerator denominator : Nat) : Nat :=
  let doublings := (numerator / denominator).log2 - 52
  let step := denominator * Nat.pow 2 doublings
  let below := numerator / step
  let rest := numerator % step
  let up := step < 2 * rest || (step == 2 * rest && below % 2 == 1)
  min (doublings * patternsPerStep + (if up then below + 1 else below)) infinityPattern

/-! ## Numbers -/

/-- The number with the given sign and pattern. -/
def ofPattern (negative : Bool) (pattern : Nat) : Float :=
  .ofBits (.ofNat ((if negative then signBit else 0) + pattern))

/-- What the bits of a number say. -/
inductive Form where
  | nan
  | infinite (negative : Bool)
  | finite (negative : Bool) (pattern : Nat)
  deriving Repr, DecidableEq

/-- The form of a number.  Patterns above that of infinity are not numbers. -/
def form (x : Float) : Form :=
  let bits := x.toBits.toNat
  let negative := signBit ≤ bits
  let pattern := bits % signBit
  if pattern < infinityPattern then .finite negative pattern
  else if pattern == infinityPattern then .infinite negative
  else .nan

/-- The integer that a number is equal to, if there is one. -/
def toInt? (x : Float) : Option Int :=
  match form x with
  | .finite negative pattern =>
      if units pattern % unitsPerOne == 0 then
        let magnitude : Int := units pattern / unitsPerOne
        some (if negative then -magnitude else magnitude)
      else
        none
  | _ => none

/-- Not a number. -/
def nan : Float := ofPattern false (infinityPattern + patternsPerStep / 2)

/-- The number nearest to a natural number. -/
def ofNat (n : Nat) : Float :=
  ofPattern false (nearestPattern (n * unitsPerOne) 1)

/-- The number nearest to an integer. -/
def ofInt (n : Int) : Float :=
  ofPattern (n < 0) (nearestPattern (n.natAbs * unitsPerOne) 1)

end Descriptor.Binary64
