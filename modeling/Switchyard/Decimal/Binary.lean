/-!
# The binary form of a floating-point number

A finite `Float` is an integer significand times a power of two.  This module reads the two off
the 64 bits of the number, so that everything said about its decimal text can be said in exact
integer arithmetic.
-/

set_option autoImplicit false

namespace Switchyard.Decimal

/-- Whether the sign bit is set; it is for `-0.0`. -/
def isNegative (x : Float) : Bool := x.toBits.toNat.testBit 63

/-- The eleven exponent bits. -/
def exponentField (x : Float) : Nat := x.toBits.toNat >>> 52 % 2048

/-- The bit before the fraction bits, which a normal number has and which is not stored. -/
def hiddenBit : Nat := 1 <<< 52

/-- The 52 fraction bits. -/
def fractionField (x : Float) : Nat := x.toBits.toNat % hiddenBit

/-- The significand: the fraction bits, with the hidden bit unless the number is subnormal. -/
def significand (x : Float) : Nat :=
  if exponentField x = 0 then fractionField x else hiddenBit + fractionField x

/-- The power of two that the significand is multiplied by. -/
def binaryExponent (x : Float) : Int := max (exponentField x) 1 - 1075

/-- Whether the gap to the next smaller number is half the gap to the next larger one, as it is
at a power of two above the subnormal numbers. -/
def isBinade (x : Float) : Bool := fractionField x = 0 ∧ 1 < exponentField x

theorem significand_lt (x : Float) : significand x < 2 * hiddenBit := by
  have h : fractionField x < hiddenBit := Nat.mod_lt _ (by decide)
  rw [significand]
  split <;> omega

end Switchyard.Decimal
