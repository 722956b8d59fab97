import BuildLens.Json.Basic
import BuildLens.Text.Quoted

/-!
# Writing JSON

Strings are written in ASCII: other characters by their UTF-16 units, and so are halves of surrogate
pairs. A value is written on one line
or, for readers, with an indentation of two spaces for each level.

Main definitions:

- `Json.compact`: the value on one line.
- `Json.pretty`: the value over several lines.
-/

namespace BuildLens.Json

open Text (Rune)

/-- One UTF-16 unit as an escape. -/
def escapeUnit (n : Nat) : List Char := '\\' :: 'u' :: Text.hexDigits 4 n

/-- How one character is written in a string. -/
def escapeChar (c : Char) : List Char :=
  if c = '"' then ['\\', '"']
  else if c = '\\' then ['\\', '\\']
  else if c = '\n' then ['\\', 'n']
  else if c = '\r' then ['\\', 'r']
  else if c = '\t' then ['\\', 't']
  else if c = '\x08' then ['\\', 'b']
  else if c = '\x0c' then ['\\', 'f']
  else
    let n := c.toNat
    if 0x20 ≤ n ∧ n < 0x7F then [c]
    else if n < 0x10000 then escapeUnit n
    else escapeUnit (0xD800 + (n - 0x10000) / 0x400) ++ escapeUnit (0xDC00 + (n - 0x10000) % 0x400)

/-- How one rune is written in a string. -/
def escapeRune : Rune → List Char
  | .char c => escapeChar c
  | .half n => escapeUnit (Rune.half n).toNat

/-- A string between quotes. -/
def quote (s : String) : String := String.ofList ('"' :: s.toList.flatMap escapeChar ++ ['"'])

/-- A text that need not be well-formed between quotes. -/
def quoteRunes (rs : List Rune) : String := String.ofList ('"' :: rs.flatMap escapeRune ++ ['"'])

mutual

/-- The value on one line. -/
def compact : Json → String
  | .null => "null"
  | .bool b => if b then "true" else "false"
  | .number literal => literal
  | .string s => quote s
  | .illFormed rs => quoteRunes rs
  | .array items => "[" ++ ",".intercalate (compactItems items) ++ "]"
  | .object fields => "\x7b" ++ ",".intercalate (compactFields fields) ++ "\x7d"

/-- The items, each on one line. -/
def compactItems : List Json → List String
  | [] => []
  | j :: js => compact j :: compactItems js

/-- The fields, each on one line. -/
def compactFields : List (String × Json) → List String
  | [] => []
  | (name, j) :: fs => (quote name ++ ":" ++ compact j) :: compactFields fs

end

/-- The lines between an opening and a closing mark, `depth` levels down. -/
def block (depth : Nat) (start stop : String) (parts : List String) : String :=
  if parts.isEmpty then start ++ stop
  else
    let pad := "\n" ++ "".pushn ' ' (2 * depth)
    start ++ pad ++ "  " ++ ("," ++ pad ++ "  ").intercalate parts ++ pad ++ stop

mutual

/-- The value over several lines, `depth` levels down. -/
def prettyAt (depth : Nat) : Json → String
  | .array items => block depth "[" "]" (prettyItems depth items)
  | .object fields => block depth "\x7b" "\x7d" (prettyFields depth fields)
  | j => compact j

/-- The items, each over several lines. -/
def prettyItems (depth : Nat) : List Json → List String
  | [] => []
  | j :: js => prettyAt (depth + 1) j :: prettyItems depth js

/-- The fields, each over several lines. -/
def prettyFields (depth : Nat) : List (String × Json) → List String
  | [] => []
  | (name, j) :: fs => (quote name ++ ": " ++ prettyAt (depth + 1) j) :: prettyFields depth fs

end

/-- The value over several lines. -/
def pretty (j : Json) : String := prettyAt 0 j

end BuildLens.Json
