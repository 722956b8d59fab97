import BuildLens.Table
import BuildLens.Text.Blank
import BuildLens.Text.Line

/-!
# Make fragments

The build writes what it knows as fragments of makefiles. Two kinds of lines are read:

    NAME = VALUE     replaces the value of the variable
    NAME += VALUE    appends to it, with a space between

All other lines say nothing.

Main definitions:

- `Assignment`, `Assignment.ofLine?`: what one line says.
- `Variables`, `Variables.assign`: the variables, and the effect of a line.
- `Variables.read`: the effect of a fragment.
-/

namespace BuildLens

open Text (isBlank trim trimLeft lines)

/-- A line that gives a variable a value, which has no blanks at its ends and may be appended to an
earlier one. -/
structure Assignment where
  name : String
  appends : Bool
  value : String
deriving DecidableEq, Repr

namespace Assignment

/-- Whether the character may stand in the name of a variable. -/
def isNameChar (c : Char) : Bool := c.isAlphanum || c == '_' || c == '.' || c == '-'

/-- What stands after the name of a variable: the operator and the value. -/
def ofTail? (name : List Char) (tail : List Char) : Option Assignment :=
  match trimLeft tail with
  | '=' :: value => some ⟨String.ofList name, false, String.ofList (trim value)⟩
  | '+' :: '=' :: value => some ⟨String.ofList name, true, String.ofList (trim value)⟩
  | _ => none

/-- What a line says, if it is an assignment. -/
def ofLine? (line : List Char) : Option Assignment :=
  let line := trimLeft line
  let name := line.takeWhile isNameChar
  if name.isEmpty then none else ofTail? name (line.dropWhile isNameChar)

end Assignment

/-- The variables of a build, in the order of their first assignment. -/
abbrev Variables := Table String

namespace Variables

/-- The value of a variable with another one appended: a space stands between two values that are
not empty. -/
def append (previous value : String) : String :=
  if previous.isEmpty then value
  else if value.isEmpty then previous
  else previous ++ " " ++ value

/-- The effect of an assignment. -/
def assign (vars : Variables) (a : Assignment) : Variables :=
  vars.insert a.name (if a.appends then append ((vars.find? a.name).getD "") a.value else a.value)

/-- The effect of a line. -/
def readLine (vars : Variables) (line : List Char) : Variables :=
  match Assignment.ofLine? line with
  | some a => vars.assign a
  | none => vars

/-- The effect of a fragment. -/
def read (vars : Variables) (fragment : String) : Variables :=
  (lines fragment.toList).foldl readLine vars

end Variables

end BuildLens
