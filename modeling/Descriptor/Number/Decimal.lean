import Descriptor.Number.Binary64

/-!
# Decimals and the binary64 numbers nearest to them

A decimal is a natural number of tens, hundreds, tenths or the like.  Each has a nearest binary64
magnitude, and of the decimals nearest to one magnitude `shortest` takes one with the fewest
digits.
-/

namespace Descriptor

/-- The magnitude `digits * 10 ^ exponent`. -/
structure Decimal where
  digits : Nat
  exponent : Int
  deriving Repr, DecidableEq

namespace Decimal

open Binary64

/-- How many digits a natural number is written with. -/
def digitCount (n : Nat) : Nat :=
  if n < 10 then 1 else digitCount (n / 10) + 1

/-- The place of the decimal point, counted from the first digit: the decimal lies below
`10 ^ point` and, unless it is zero, not below `10 ^ (point - 1)`. -/
def point (d : Decimal) : Int :=
  digitCount d.digits + d.exponent

/-! ## The nearest binary64 magnitude -/

/-- Decimals at or above `10 ^ 310` are beyond every finite magnitude. -/
def pointLimit : Int := 310

/-- Decimals below `10 ^ -330` are nearest to zero. -/
def pointFloor : Int := -330

/-- The pattern of the nearest binary64 magnitude, a tie going to the even one.  Decimals far
outside the range are not computed with. -/
def nearestPattern (d : Decimal) : Nat :=
  if d.digits == 0 || d.point < pointFloor then 0
  else if pointLimit < d.point then infinityPattern
  else if d.exponent < 0 then
    Binary64.nearestPattern (d.digits * unitsPerOne) (Nat.pow 10 (-d.exponent).toNat)
  else
    Binary64.nearestPattern (d.digits * unitsPerOne * Nat.pow 10 d.exponent.toNat) 1

/-- The number with the given sign nearest to a decimal. -/
def toFloat (negative : Bool) (d : Decimal) : Float :=
  ofPattern negative d.nearestPattern

/-! ## The shortest decimal of a magnitude -/

/-- The place of the decimal point of a magnitude that is not zero: it lies below `10 ^ point` and
not below `10 ^ (point - 1)`. -/
def pointOf (units : Nat) : Int :=
  digitCount (units * Nat.pow 10 330 / unitsPerOne) - 330

/-- The two multiples of `10 ^ exponent` around a magnitude, the nearer one first.  Half-way
between them the greater one comes first. -/
def neighbours (units : Nat) (exponent : Int) : List Decimal :=
  let numerator := units * Nat.pow 10 (-exponent).toNat
  let denominator := unitsPerOne * Nat.pow 10 exponent.toNat
  let below := numerator / denominator
  let rest := numerator % denominator
  if 2 * rest < denominator then [⟨below, exponent⟩, ⟨below + 1, exponent⟩]
  else [⟨below + 1, exponent⟩, ⟨below, exponent⟩]

/-- The exact value of a magnitude. -/
def exact (units : Nat) : Decimal :=
  ⟨units * Nat.pow 5 1074, -1074⟩

/-- The decimal with the fewest digits whose nearest magnitude has the given pattern, and the
nearest of those.  Seventeen digits are enough for every magnitude. -/
def shortest (pattern : Nat) : Decimal :=
  let magnitude := units pattern
  let first := pointOf magnitude - 1
  let found := (List.range 17).findSome? fun others : Nat =>
    (neighbours magnitude (first - others)).find? (·.nearestPattern == pattern)
  found.getD (exact magnitude)

/-! ## Reading -/

/-- The natural number written with the given digits. -/
def ofDigits (digits : List Char) : Nat :=
  digits.foldl (fun value digit => 10 * value + (digit.toNat - '0'.toNat)) 0

/-- The exponent behind the digits of a numeral: nothing, or `e` in either case, a sign or none,
and digits to the end of the text. -/
def readExponent? (text : List Char) : Option Int :=
  let natural := fun digits : List Char =>
    if !digits.isEmpty && digits.all Char.isDigit then some (ofDigits digits : Int) else none
  match text with
  | [] => some 0
  | e :: rest =>
      if e == 'e' || e == 'E' then
        match rest with
        | '-' :: digits => (natural digits).map (-·)
        | '+' :: digits => natural digits
        | digits => natural digits
      else
        none

/-- A numeral without a sign: ASCII digits, at least one, with at most one dot among, before or
after them, and then an exponent or none. -/
def read? (text : List Char) : Option Decimal :=
  let whole := text.takeWhile Char.isDigit
  let (fraction, rest) := match text.dropWhile Char.isDigit with
    | '.' :: rest => (rest.takeWhile Char.isDigit, rest.dropWhile Char.isDigit)
    | rest => ([], rest)
  if (whole ++ fraction).isEmpty then none
  else (readExponent? rest).map fun exponent =>
    ⟨ofDigits (whole ++ fraction), exponent - fraction.length⟩

/-! ## Writing -/

/-- The digits of a decimal from the first to the last that is not zero. -/
def significant (d : Decimal) : List Char :=
  ((Nat.toDigits 10 d.digits).reverse.dropWhile (· == '0')).reverse

/-- A decimal that is not zero, written without an exponent. -/
def positional (d : Decimal) : List Char :=
  let digits := d.significant
  if d.point ≤ 0 then
    '0' :: '.' :: List.replicate (-d.point).toNat '0' ++ digits
  else
    let whole := d.point.toNat
    if digits.length ≤ whole then digits ++ List.replicate (whole - digits.length) '0'
    else digits.take whole ++ '.' :: digits.drop whole

/-- A decimal that is not zero, written with one digit before the dot and an exponent with a
sign. -/
def scientific (d : Decimal) : List Char :=
  let exponent := d.point - 1
  let sign := if exponent < 0 then '-' else '+'
  let fraction := match d.significant with
    | first :: [] => [first]
    | first :: others => first :: '.' :: others
    | [] => []
  fraction ++ 'e' :: sign :: Nat.toDigits 10 exponent.natAbs

end Decimal

end Descriptor
