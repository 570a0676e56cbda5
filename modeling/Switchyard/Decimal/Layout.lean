import Switchyard.Decimal.Shortest

/-!
# Laying out a decimal

A decimal in scientific form is written positionally while its exponent lies in a given range, and
with an explicit power of ten outside it.  The positional form always shows a fraction, so that
the text of a floating-point number never looks like an integer.
-/

set_option autoImplicit false

namespace Switchyard.Decimal

/-- The exponents that are written positionally. -/
structure Layout where
  lowest : Int
  highest : Int

/-- The digits with the point after the power `e` of the first digit: `12` is `1.2`, `12.0`,
`120.0` or `0.12` for the exponents 0, 1, 2 and -1. -/
def positional (digits : List Char) (e : Int) : List Char :=
  if e < 0 then
    '0' :: '.' :: (List.replicate (-e - 1).toNat '0' ++ digits)
  else
    let whole := e.toNat + 1
    let head := digits.take whole ++ List.replicate (whole - digits.length) '0'
    let tail := digits.drop whole
    head ++ '.' :: (if tail.isEmpty then ['0'] else tail)

/-- The digits with a point after the first, and the exponent with its sign. -/
def exponential (digits : List Char) (e : Int) : List Char :=
  let mantissa :=
    match digits with
    | d :: f :: rest => d :: '.' :: f :: rest
    | ds => ds
  mantissa ++ 'e' :: (if e < 0 then '-' else '+') :: Nat.toDigits 10 e.natAbs

/-- A decimal in the form that the layout asks for. -/
def Layout.chars (layout : Layout) (d : Scientific) : List Char :=
  if layout.lowest ≤ d.exponent ∧ d.exponent ≤ layout.highest then positional d.digits d.exponent
  else exponential d.digits d.exponent

/-- The text of a finite number: its sign and its shortest decimal. -/
def Layout.floatChars (layout : Layout) (x : Float) : List Char :=
  let unsigned := if significand x = 0 then ['0', '.', '0'] else layout.chars (shortest x)
  if isNegative x then '-' :: unsigned else unsigned

end Switchyard.Decimal
