import Switchyard.Decimal.Binary

/-!
# The shortest decimal of a floating-point number

Among the decimals that read back as a given number this picks one with the fewest digits, and of
those the one nearest to the number; an exact tie goes to the even digit.  A decimal reads back as
`x` when it lies in the interval of reals that round to `x`, whose ends belong to it iff the
significand is even.

On the grid of multiples of a power of ten, if any point lies in that interval then one of the two
neighbours of `x` does, so `candidate?` looks at those two only; `shortest` tries the grids from
the coarsest to the finest.  Seventeen digits always suffice.
-/

set_option autoImplicit false

namespace Switchyard.Decimal

/-- A positive decimal in scientific form: its digits, the first of them not zero, and the power
of ten of the first digit. -/
structure Scientific where
  digits : List Char
  exponent : Int
deriving DecidableEq

/-- The interval of reals that round to a number, and the number itself, in units of a power of
ten: three numerators over one denominator. -/
structure Rounding where
  low : Nat
  value : Nat
  high : Nat
  unit : Nat
  closed : Bool

/-- The interval of `x` in units of `10 ^ k`. -/
def rounding (x : Float) (k : Int) : Rounding :=
  let q := binaryExponent x - 2
  let num := Nat.pow 10 (-k).toNat <<< q.toNat
  let below := if isBinade x then 1 else 2
  { low := (4 * significand x - below) * num
    value := 4 * significand x * num
    high := (4 * significand x + 2) * num
    unit := Nat.pow 10 k.toNat <<< (-q).toNat
    closed := significand x % 2 = 0 }

/-- Whether the `d`-th point of the grid rounds to the number. -/
def Rounding.contains (r : Rounding) (d : Nat) : Bool :=
  if r.closed then r.low ≤ d * r.unit ∧ d * r.unit ≤ r.high
  else r.low < d * r.unit ∧ d * r.unit < r.high

/-- The point of the grid that rounds to the number, the nearer one if both neighbours do. -/
def Rounding.candidate? (r : Rounding) : Option Nat :=
  let d := r.value / r.unit
  match r.contains d, r.contains (d + 1) with
  | true, true =>
    let before := r.value - d * r.unit
    let after := (d + 1) * r.unit - r.value
    if before < after then some d
    else if after < before then some (d + 1)
    else if d % 2 = 0 then some d
    else some (d + 1)
  | true, false => some d
  | false, true => some (d + 1)
  | false, false => none

/-- The power of ten of the first digit of a positive number. -/
def leadingExponent (x : Float) : Int :=
  let r := rounding x 0
  if r.unit ≤ r.value then ((Nat.toDigits 10 (r.value / r.unit)).length : Int) - 1
  else -((Nat.toDigits 10 ((r.unit - 1) / r.value)).length : Int)

/-- The scientific form of the grid point `d` times `10 ^ k`. -/
def Scientific.ofGrid (d : Nat) (k : Int) : Scientific :=
  let digits := Nat.toDigits 10 d
  { digits := (digits.reverse.dropWhile (· = '0')).reverse
    exponent := k + digits.length - 1 }

/-- Tries the grids of `10 ^ k`, `10 ^ (k - 1)` and so on, `count` of them. -/
def scan (x : Float) (k : Int) : Nat → Scientific
  | 0 => .ofGrid ((rounding x k).value / (rounding x k).unit) k
  | count + 1 =>
    match (rounding x k).candidate? with
    | some d => .ofGrid d k
    | none => scan x (k - 1) count

/-- The shortest decimal that reads back as the absolute value of `x`, for a finite `x` other than
zero. -/
def shortest (x : Float) : Scientific := scan x (leadingExponent x) 17

end Switchyard.Decimal
