/-!
# Blank characters and trimming

Blank characters separate words and are trimmed from the ends of settings, flags and lines of
build output: the control characters that move the cursor, the four information separators, and
the space characters of every script.

Main definitions:

- `isBlank`: the class.
- `trimLeft`, `trim`, `strip`: removal of blanks at the start, or at both ends.
-/

namespace BuildLens.Text

/-- Whether the character is a blank. -/
def isBlank (c : Char) : Bool :=
  let n := c.toNat
  (9 ≤ n && n ≤ 13) || (28 ≤ n && n ≤ 32) || n == 0x85 || n == 0xA0 || n == 0x1680 ||
    (0x2000 ≤ n && n ≤ 0x200A) || n == 0x2028 || n == 0x2029 || n == 0x202F || n == 0x205F ||
    n == 0x3000

/-- Drops the blanks at the start. -/
def trimLeft (cs : List Char) : List Char := cs.dropWhile isBlank

/-- Drops the blanks at the end. -/
def trimRight (cs : List Char) : List Char := (cs.reverse.dropWhile isBlank).reverse

/-- Drops the blanks at both ends. -/
def trim (cs : List Char) : List Char := trimRight (trimLeft cs)

theorem mem_of_mem_trim {cs : List Char} {c : Char} (h : c ∈ trim cs) : c ∈ cs := by
  rw [trim, trimRight, List.mem_reverse] at h
  have hleft : c ∈ trimLeft cs := List.mem_reverse.mp ((List.dropWhile_sublist isBlank).subset h)
  exact (List.dropWhile_sublist isBlank).subset hleft

/-- The text without the blanks at its ends. -/
def strip (s : String) : String := String.ofList (trim s.toList)

end BuildLens.Text
