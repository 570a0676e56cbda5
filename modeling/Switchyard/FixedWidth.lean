/-!
# Integers of fixed width

Which integers are values of a machine word.  An integer fits into a word if wrapping it to the
width of the word loses nothing.
-/

set_option autoImplicit false

namespace Switchyard.FixedWidth

/-- The 32-bit word of an integer that fits. -/
def int32? (n : Int) : Option Int32 :=
  let w := Int32.ofInt n
  if w.toInt = n then some w else none

/-- The 64-bit word of an integer that fits. -/
def int64? (n : Int) : Option Int64 :=
  let w := Int64.ofInt n
  if w.toInt = n then some w else none

/-- Whether an integer fits into 64 bits, signed or unsigned. -/
def fitsIn64 (n : Int) : Bool := (int64? n).isSome || (0 ≤ n && n < UInt64.size)

@[simp] theorem int32?_toInt (w : Int32) : int32? w.toInt = some w := by simp [int32?]

@[simp] theorem int64?_toInt (w : Int64) : int64? w.toInt = some w := by simp [int64?]

end Switchyard.FixedWidth
