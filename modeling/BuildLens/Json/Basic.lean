import BuildLens.Table
import BuildLens.Text.Rune

/-!
# JSON values

Main definitions:

- `Json`: a value. A number is kept as the text that wrote it; no arithmetic is done with numbers.
  Half of a surrogate pair is no character: a string that holds one is ill-formed, and kept apart
  from the others. In the name of a field it is rendered.
- `Json.ofRunes`: the string of a text that need not be well-formed.
- `Json.get?`: the value of a field.
-/

namespace BuildLens

open Text (Rune)

/-- A JSON value. The fields of an object are in order, and no name occurs twice. -/
inductive Json where
  | null
  | bool (b : Bool)
  | number (literal : String)
  | string (s : String)
  | illFormed (rs : List Rune)
  | array (items : List Json)
  | object (fields : List (String × Json))
deriving Repr, Inhabited

namespace Json

/-- The string of a text that need not be well-formed. -/
def ofRunes (rs : List Rune) : Json :=
  match Text.charsOf? rs with
  | some cs => .string (String.ofList cs)
  | none => .illFormed rs

/-- The value of a field of an object. -/
def get? (j : Json) (name : String) : Option Json :=
  match j with
  | .object fields => fields.lookup name
  | _ => none

/-- The number as a JSON value. -/
def ofInt (n : Int) : Json := .number (toString n)

/-- The number as a JSON value. -/
def ofNat (n : Nat) : Json := .number (toString n)

/-- The text, or null. -/
def ofText? (s : Option String) : Json := (s.map .string).getD .null

/-- The table as an object. -/
def ofTextTable (t : Table String) : Json := .object (t.entries.map fun e => (e.1, .string e.2))

/-- The texts as an array. -/
def ofTexts (ss : List String) : Json := .array (ss.map .string)

/-- The object with those of the fields that are not null. -/
def ofFields (fields : List (String × Json)) : Json :=
  .object (fields.filter fun f => match f.2 with
    | .null => false
    | _ => true)

end Json

end BuildLens
