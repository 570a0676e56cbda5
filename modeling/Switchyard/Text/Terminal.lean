import Switchyard.Text.Hex

/-!
# Text for a terminal

A terminal takes some control characters as commands.  `disarm` writes them out as their code
points, and `isCommand_eq_false_of_mem_disarm` says that none of them is left.
-/

set_option autoImplicit false

namespace Switchyard.Text

/-- The commands of one byte: bell, backspace, form feed, escape and delete. -/
def byteCommands : List Char := ['\x07', '\x08', '\x0c', '\x1b', '\x7f']

/-- Whether a character is a control character of the second kind, from U+0080 to U+009F. -/
def isHighControl (c : Char) : Bool := 0x80 ≤ c.toNat && c.toNat ≤ 0x9F

/-- Whether a terminal takes a character as a command. -/
def isCommand (c : Char) : Bool := c ∈ byteCommands || isHighControl c

/-- A character with a command written out as its code point. -/
def disarmChar (c : Char) : List Char :=
  if c ∈ byteCommands then ['\\', 'x'] ++ hexDigits 2 c.toNat
  else if isHighControl c then ['\\', 'u', '{'] ++ hexDigits 2 c.toNat ++ ['}']
  else [c]

/-- A text with its commands written out. -/
def disarm (s : String) : String := String.ofList (s.toList.flatMap disarmChar)

/-- A character that is no command stays as it is. -/
theorem disarmChar_of_not_isCommand {c : Char} (h : isCommand c = false) : disarmChar c = [c] := by
  rw [isCommand, Bool.or_eq_false_iff, decide_eq_false_iff_not] at h
  simp [disarmChar, h.1, h.2]

/-- No hexadecimal digit is a command. -/
theorem isCommand_digitChar : ∀ d, d < 16 → isCommand d.digitChar = false := by decide

theorem isCommand_of_mem_hexDigits {count n : Nat} {c : Char} (h : c ∈ hexDigits count n) :
    isCommand c = false := by
  induction count generalizing n with
  | zero => simp [hexDigits] at h
  | succ count ih =>
    rw [hexDigits, List.mem_append, List.mem_singleton] at h
    rcases h with h | rfl
    · exact ih h
    · exact isCommand_digitChar _ (Nat.mod_lt n (by decide))

/-- **No command is left in a text whose commands are written out.** -/
theorem isCommand_eq_false_of_mem_disarm {s : String} {c : Char} (h : c ∈ (disarm s).toList) :
    isCommand c = false := by
  simp only [disarm, String.toList_ofList, List.mem_flatMap] at h
  obtain ⟨a, -, ha⟩ := h
  rw [disarmChar] at ha
  split at ha
  · simp only [List.cons_append, List.nil_append, List.mem_cons] at ha
    rcases ha with rfl | rfl | ha
    · decide
    · decide
    · exact isCommand_of_mem_hexDigits ha
  · split at ha
    · simp only [List.cons_append, List.nil_append, List.mem_cons, List.mem_append,
        List.not_mem_nil, or_false] at ha
      rcases ha with rfl | rfl | rfl | ha | rfl
      · decide
      · decide
      · decide
      · exact isCommand_of_mem_hexDigits ha
      · decide
    · next hbyte hhigh =>
      rw [List.mem_singleton] at ha
      subst ha
      simp [isCommand, hbyte, hhigh]

end Switchyard.Text
