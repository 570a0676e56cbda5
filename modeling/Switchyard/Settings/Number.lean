import Switchyard.Decimal.Reading
import Switchyard.FixedWidth

/-!
# Numbers in settings

How the value of a setting is read as a number.  All of the text has to be the number: an integer
is an optional sign and decimal digits, and a float may besides have a point, with digits on at
least one side of it, and an exponent, or may be an infinity or no number at all.
-/

set_option autoImplicit false

namespace Switchyard.Settings

open Switchyard.Decimal

/-- The number written by digits alone. -/
def digits? (cs : List Char) : Option Nat :=
  if cs.isEmpty ∨ ¬ cs.all Char.isDigit then none else some (ofDigits cs)

/-- A natural number, which may have a plus sign. -/
def nat? : List Char → Option Nat
  | '+' :: rest => digits? rest
  | cs => digits? cs

/-- An integer. -/
def int? : List Char → Option Int
  | '-' :: rest => (digits? rest).map fun n => -(n : Int)
  | cs => (nat? cs).map Int.ofNat

/-- A natural number below a bound. -/
def natBelow? (bound : Nat) (cs : List Char) : Option Nat := (nat? cs).filter fun n => n < bound

/-- An integer of 32 bits. -/
def int32? (cs : List Char) : Option Int32 := (int? cs).bind FixedWidth.int32?

/-- The magnitudes that are written as words, in letters of either case. -/
def word? (cs : List Char) : Option Float :=
  let word := String.ofList (cs.map Char.toLower)
  if word = "inf" ∨ word = "infinity" then some (1.0 / 0.0)
  else if word = "nan" then some (0.0 / 0.0)
  else none

/-- The fraction digits behind a point, if there is one, and what follows them. -/
def takeFraction : List Char → List Char × List Char
  | '.' :: rest => takeDigits rest
  | cs => ([], cs)

/-- A float written by digits. -/
def decimal? (negative : Bool) (cs : List Char) : Option Float :=
  let (whole, rest) := takeDigits cs
  let (fraction, rest) := takeFraction rest
  if whole.isEmpty ∧ fraction.isEmpty then none
  else
    match takeExponent? rest with
    | some (exponent, []) =>
      some (toFloat negative (ofDigits (whole ++ fraction))
        (exponent.getD 0 - fraction.length))
    | _ => none

/-- A float without its sign. -/
def magnitude? (negative : Bool) (cs : List Char) : Option Float :=
  match word? cs with
  | some x => some (if negative then -x else x)
  | none => decimal? negative cs

/-- A float. -/
def float? : List Char → Option Float
  | '-' :: rest => magnitude? true rest
  | '+' :: rest => magnitude? false rest
  | cs => magnitude? false cs

end Switchyard.Settings
