/-!
# Lines

A text is cut into lines at every line break: line feed, carriage return (together with a line feed
that follows it), vertical tab, form feed, three of the information separators, next line, and the
line and paragraph separators. A break that ends the text does not begin another line.

Main definitions:

- `isBreak`: the line breaks of one character.
- `lines`: the lines of a text, without their breaks.
-/

namespace BuildLens.Text

/-- Whether the character ends a line. -/
def isBreak (c : Char) : Bool :=
  let n := c.toNat
  (10 ≤ n && n ≤ 13) || (28 ≤ n && n ≤ 30) || n == 0x85 || n == 0x2028 || n == 0x2029

/-- The lines of a text, without their breaks. -/
def lines : List Char → List (List Char)
  | [] => []
  | '\r' :: '\n' :: cs => [] :: lines cs
  | c :: cs =>
    if isBreak c then [] :: lines cs
    else match lines cs with
      | [] => [[c]]
      | l :: ls => (c :: l) :: ls

/-- The text with every carriage return, alone or before a line feed, read as a line feed. -/
def normalizeNewlines : List Char → List Char
  | [] => []
  | '\r' :: '\n' :: cs => '\n' :: normalizeNewlines cs
  | c :: cs => (if c = '\r' then '\n' else c) :: normalizeNewlines cs

end BuildLens.Text
