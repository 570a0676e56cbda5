import Switchyard.Decimal.Binary

/-!
# Numbers rounded to whole units

The text of a floating-point number without its fraction: the exact value rounded to the nearest
integer, a half going to the even neighbour, with every digit written out.  The sign is that of
the number and not that of the rounded value, so a small negative number is written `-0`.
-/

set_option autoImplicit false

namespace Switchyard.Decimal

/-- The quotient rounded to the nearest integer, a half going to the even neighbour. -/
def roundHalfEven (num den : Nat) : Nat :=
  let d := num / den
  let rest := num % den
  if 2 * rest < den then d
  else if den < 2 * rest then d + 1
  else if d % 2 = 0 then d
  else d + 1

/-- A tie goes to the even neighbour. -/
theorem roundHalfEven_half (d : Nat) : roundHalfEven (2 * d + 1) 2 % 2 = 0 := by
  rw [roundHalfEven]
  have hdiv : (2 * d + 1) / 2 = d := by omega
  have hmod : (2 * d + 1) % 2 = 1 := by omega
  simp only [hdiv, hmod]
  split
  · omega
  · split <;> omega

/-- The absolute value of a finite number, rounded to an integer. -/
def wholeMagnitude (x : Float) : Nat :=
  let q := binaryExponent x
  roundHalfEven (significand x <<< q.toNat) (1 <<< (-q).toNat)

/-- The number in whole units, as text. -/
def wholeText (x : Float) : String :=
  if x.isNaN then "NaN"
  else
    let magnitude := if x.isFinite then toString (wholeMagnitude x) else "inf"
    if isNegative x then "-" ++ magnitude else magnitude

end Switchyard.Decimal
