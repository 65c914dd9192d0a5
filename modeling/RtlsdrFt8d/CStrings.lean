import Mathlib.Data.List.Basic

/-!
# Strings in character arrays

A C character array of `size` bytes holds a text of at most `size - 1`
characters and its terminating NUL.  The bound is part of the type, so a text
that would overflow the array cannot be stored in it.
-/

/-- The text in a character array of `size` bytes. -/
structure CString (size : Nat) where
  chars : List Char
  length_le : chars.length ≤ size - 1
  deriving DecidableEq

namespace CString

variable {size : Nat}

@[ext]
theorem ext {first second : CString size} (sameChars : first.chars = second.chars) :
    first = second := by
  cases first
  cases second
  simpa using sameChars

/-- `snprintf(array, size, "%s", text)`: keep what fits. -/
def snprintf (size : Nat) (text : List Char) : CString size where
  chars := text.take (size - 1)
  length_le := List.length_take_le (size - 1) text

def empty (size : Nat) : CString size where
  chars := []
  length_le := Nat.zero_le _

@[simp]
theorem chars_snprintf (text : List Char) :
    (snprintf size text).chars = text.take (size - 1) :=
  rfl

end CString
