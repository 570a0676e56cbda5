/-!
# Places in bytes

Places in a text that are counted in the bytes of UTF-8.  `sliceBytes_append` says that the slice
at the place of a part is the part.
-/

set_option autoImplicit false

namespace Switchyard.Text

/-- How many bytes a text takes. -/
def bytes : List Char → Nat
  | [] => 0
  | c :: cs => c.utf8Size + bytes cs

/-- A text without its first bytes. -/
def dropBytes : Nat → List Char → List Char
  | _, [] => []
  | n, c :: cs => if n = 0 then c :: cs else dropBytes (n - c.utf8Size) cs

/-- The first bytes of a text. -/
def takeBytes : Nat → List Char → List Char
  | _, [] => []
  | n, c :: cs => if n = 0 then [] else c :: takeBytes (n - c.utf8Size) cs

/-- The slice of a text that starts at a place and is as long as a given part. -/
def sliceBytes (cs : List Char) (start : Nat) (part : List Char) : List Char :=
  takeBytes (bytes part) (dropBytes start cs)

theorem dropBytes_append (a b : List Char) : dropBytes (bytes a) (a ++ b) = b := by
  induction a with
  | nil => cases b <;> simp [dropBytes, bytes]
  | cons c a ih =>
    have hpos := c.utf8Size_pos
    simp [dropBytes, bytes, ih, show c.utf8Size ≠ 0 by omega]

theorem takeBytes_append (a b : List Char) : takeBytes (bytes a) (a ++ b) = a := by
  induction a with
  | nil => cases b <;> simp [takeBytes, bytes]
  | cons c a ih =>
    have hpos := c.utf8Size_pos
    simp [takeBytes, bytes, ih, show c.utf8Size ≠ 0 by omega]

/-- **The slice at the place of a part of a text is that part.** -/
theorem sliceBytes_append (a part b : List Char) :
    sliceBytes (a ++ (part ++ b)) (bytes a) part = part := by
  rw [sliceBytes, dropBytes_append, takeBytes_append]

end Switchyard.Text
