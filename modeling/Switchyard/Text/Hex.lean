/-!
# Hexadecimal text

Numbers written in base sixteen with a fixed count of digits, most significant digit first.
Writing uses lowercase digits; reading takes either case.  The two directions meet in
`ofHexDigits?_hexDigits`: what is written reads back as the number itself, up to the digits that
the fixed count cuts off.
-/

set_option autoImplicit false

namespace Switchyard.Text

/-- The value of one hexadecimal digit, in either case. -/
def hexValue? (c : Char) : Option Nat :=
  if '0' ≤ c ∧ c ≤ '9' then some (c.toNat - '0'.toNat)
  else if 'a' ≤ c ∧ c ≤ 'f' then some (c.toNat - 'a'.toNat + 10)
  else if 'A' ≤ c ∧ c ≤ 'F' then some (c.toNat - 'A'.toNat + 10)
  else none

/-- A digit that was written reads back as its value. -/
theorem hexValue?_digitChar : ∀ d, d < 16 → hexValue? d.digitChar = some d := by decide

/-- The `count` lowest hexadecimal digits of `n`, most significant first. -/
def hexDigits : Nat → Nat → List Char
  | 0, _ => []
  | count + 1, n => hexDigits count (n / 16) ++ [(n % 16).digitChar]

@[simp] theorem length_hexDigits (count n : Nat) : (hexDigits count n).length = count := by
  induction count generalizing n with
  | zero => rfl
  | succ count ih => simp [hexDigits, ih]

/-- The number written by a string of hexadecimal digits; `none` if some character is no digit. -/
def ofHexDigits? (cs : List Char) : Option Nat :=
  cs.foldlM (fun n c => (hexValue? c).map (16 * n + ·)) 0

theorem ofHexDigits?_concat (cs : List Char) (c : Char) :
    ofHexDigits? (cs ++ [c]) =
      (ofHexDigits? cs).bind fun n => (hexValue? c).map (16 * n + ·) := by
  simp [ofHexDigits?]

/-- Reading undoes writing, up to the digits that the count cuts off. -/
theorem ofHexDigits?_hexDigits (count n : Nat) :
    ofHexDigits? (hexDigits count n) = some (n % Nat.pow 16 count) := by
  induction count generalizing n with
  | zero => simp [hexDigits, ofHexDigits?, Nat.mod_one]
  | succ count ih =>
    have hpow : Nat.pow 16 (count + 1) = 16 * Nat.pow 16 count := Nat.mul_comm _ _
    rw [hexDigits, ofHexDigits?_concat, ih, Option.bind_some,
      hexValue?_digitChar _ (Nat.mod_lt n (by decide)), Option.map_some, hpow, Nat.mod_mul,
      Nat.add_comm]

end Switchyard.Text
