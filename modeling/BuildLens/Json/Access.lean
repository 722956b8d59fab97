import BuildLens.Json.Basic

/-!
# Looking into JSON values

Parts of a value are taken out with a default where they are missing or of another kind.

Main definitions:

- `Json.asText`, `Json.asTexts`, `Json.asItems`, `Json.asFields`, `Json.asTextTable`: values as
  text, lists and tables.
- `Json.field`, `Json.text`, `Json.texts`, `Json.items`, `Json.textTable`, `Json.flag`, `Json.int`:
  the same of the fields of an object.
-/

namespace BuildLens.Json

/-- The string that the value is, if it is one. -/
def asText? : Json → Option String
  | .string s => some s
  | _ => none

/-- The string that the value is, or the empty one. -/
def asText (j : Json) : String := j.asText?.getD ""

/-- The items of an array, or none. -/
def asItems : Json → List Json
  | .array js => js
  | _ => []

/-- The strings of an array. -/
def asTexts (j : Json) : List String := j.asItems.map asText

/-- The fields of an object, or none. -/
def asFields : Json → List (String × Json)
  | .object fields => fields
  | _ => []

/-- The object as a table of strings. -/
def asTextTable (j : Json) : Table String :=
  Table.ofList (j.asFields.map fun e => (e.1, e.2.asText))

/-- The whole number that the value is, or the default. -/
def asInt (default : Int) : Json → Int
  | .number literal => literal.toInt?.getD default
  | _ => default

/-- The truth value that the value is, or the default. -/
def asFlag (default : Bool) : Json → Bool
  | .bool b => b
  | _ => default

/-- The value of a field, or null. -/
def field (j : Json) (name : String) : Json := (j.get? name).getD .null

/-- The string in a field, if there is one. -/
def text? (j : Json) (name : String) : Option String := (j.field name).asText?

/-- The string in a field, or the empty one. -/
def text (j : Json) (name : String) : String := (j.field name).asText

/-- The items in a field. -/
def items (j : Json) (name : String) : List Json := (j.field name).asItems

/-- The strings in a field. -/
def texts (j : Json) (name : String) : List String := (j.field name).asTexts

/-- The table of strings in a field. -/
def textTable (j : Json) (name : String) : Table String := (j.field name).asTextTable

/-- The whole number in a field, or the default. -/
def int (j : Json) (name : String) (default : Int := 0) : Int := (j.field name).asInt default

/-- The truth value in a field, or the default. -/
def flag (j : Json) (name : String) (default : Bool := false) : Bool :=
  (j.field name).asFlag default

end BuildLens.Json
