/-!
# Control sequences

A control sequence tells a terminal how to show what follows. It begins with the escape character
and a bracket; parameters follow, and a letter ends it. A text that does not go to a terminal is
written without the sequences. One that is broken off stays as it is.

Main definitions:

- `withoutSequences`: the text without control sequences.
-/

namespace BuildLens.Text

/-- The character that begins a control sequence. -/
def escape : Char := '\x1b'

/-- Whether the character may be part of the parameters of a control sequence. -/
def isParameter (c : Char) : Bool := c.isDigit || c == ';' || c == '?'

/-- Whether a character goes on with the sequence that has begun so, last character first. -/
def goesOn (begun : List Char) (c : Char) : Bool :=
  (begun == [escape] && c == '[') || (decide (2 ≤ begun.length) && isParameter c)

/-- Whether a character ends the sequence that has begun so. -/
def ends (begun : List Char) (c : Char) : Bool := decide (2 ≤ begun.length) && c.isAlpha

/-- The text after a sequence that has begun so, without control sequences. -/
def withoutSequencesFrom (begun : List Char) : List Char → List Char
  | [] => begun.reverse
  | c :: cs =>
    if goesOn begun c then withoutSequencesFrom (c :: begun) cs
    else if ends begun c then withoutSequencesFrom [] cs
    else if c = escape then begun.reverse ++ withoutSequencesFrom [c] cs
    else begun.reverse ++ c :: withoutSequencesFrom [] cs

/-- The text without control sequences. -/
def withoutSequences (s : String) : String := String.ofList (withoutSequencesFrom [] s.toList)

end BuildLens.Text
