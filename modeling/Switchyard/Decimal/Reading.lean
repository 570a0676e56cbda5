/-!
# Reading decimals

A decimal is read as the floating-point number nearest to it.  The pieces are shared by the
readers of the formats that contain numbers: `takeDigits` and `takeExponent?` split a text after its
leading digits and after an exponent, `toFloat` rounds a decimal, and `floatOfInt` does the same for
an integer.
-/

set_option autoImplicit false

namespace Switchyard.Decimal

/-- The leading digits of a text and what follows them. -/
def takeDigits (cs : List Char) : List Char × List Char := cs.span Char.isDigit

/-- The number written by decimal digits. -/
def ofDigits (ds : List Char) : Nat := Nat.ofDigitChars 10 ds 0

/-- The exponent behind the digits of a number, if there is one, and what follows it. -/
def takeExponent? : List Char → Option (Option Int × List Char)
  | [] => some (none, [])
  | c :: rest =>
    if c = 'e' ∨ c = 'E' then
      let (negative, rest) :=
        match rest with
        | '-' :: rest => (true, rest)
        | '+' :: rest => (false, rest)
        | rest => (false, rest)
      match takeDigits rest with
      | ([], _) => none
      | (ds, rest) =>
        some (some (if negative then -(ofDigits ds : Int) else ofDigits ds), rest)
    else some (none, c :: rest)

/-- An exponent within the bounds beyond which it makes no difference: above them the number is too
great for a float, and below them it is nearer to zero than to the smallest one. -/
def boundExponent (significand : Nat) (exponent : Int) : Int :=
  max (-(400 + (significand.log2 : Int))) (min 400 exponent)

/-- The number nearest to `significand * 10 ^ exponent`, with the given sign. -/
def toFloat (negative : Bool) (significand : Nat) (exponent : Int) : Float :=
  let exponent := boundExponent significand exponent
  let magnitude := Float.ofScientific significand (exponent < 0) exponent.natAbs
  if negative then -magnitude else magnitude

/-- The number nearest to an integer. -/
def floatOfInt (n : Int) : Float := toFloat (n < 0) n.natAbs 0

end Switchyard.Decimal
