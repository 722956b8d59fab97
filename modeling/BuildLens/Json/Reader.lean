import BuildLens.Json.Basic
import BuildLens.Json.Limit
import BuildLens.Table

/-!
# Reading JSON

The text is cut into tokens, and each token drives a machine that keeps the arrays and objects still
open on a stack. The first fault that is met counts. Besides the standard numbers, `NaN` and the two
infinities are numbers. Of fields with one name the last counts, in the place of the first. Blanks
are the space, the tab, and the two characters that end lines; control characters in strings are
faults. A string may hold half of a surrogate pair.

Main definitions:

- `Json.token?`: the first token of a text.
- `Json.State`, `Json.State.take`: the machine that builds the value.
- `Json.parse`, `Json.parse?`: the value that a text writes.
-/

namespace BuildLens.Json

open Text (Rune)

/-! ## Tokens -/

/-- A token: a mark, a string, which may also name a field, a whole number that has more digits than
it may have, or any other value without parts. -/
inductive Token where
  | openArray
  | closeArray
  | openObject
  | closeObject
  | comma
  | colon
  | string (rs : List Rune)
  | longNumber (digits : Nat)
  | scalar (v : Json)

/-- The value of a hexadecimal digit. -/
def hexDigit? (c : Char) : Option Nat :=
  if c.isDigit then some (c.toNat - 48)
  else if 'a' ≤ c ∧ c ≤ 'f' then some (c.toNat - 87)
  else if 'A' ≤ c ∧ c ≤ 'F' then some (c.toNat - 55)
  else none

/-- A piece of a string: a character that stands for itself or is escaped by a letter, or the unit
that four hexadecimal digits write. -/
inductive Piece where
  | char (c : Char)
  | unit (n : Nat)

/-- The character meant by a letter after a backslash. -/
def escapeOf? : Char → Option Char
  | '"' => some '"'
  | '\\' => some '\\'
  | '/' => some '/'
  | 'b' => some '\x08'
  | 'f' => some '\x0c'
  | 'n' => some '\n'
  | 'r' => some '\r'
  | 't' => some '\t'
  | _ => none

/-- The unit written by four hexadecimal digits. -/
def unit? (a b c d : Char) : Option Nat := do
  return 0x1000 * (← hexDigit? a) + 0x100 * (← hexDigit? b) + 0x10 * (← hexDigit? c) +
    (← hexDigit? d)

/-- The pieces of a string up to its closing quote, last first, and the text after that. -/
def pieces? (found : List Piece) : List Char → Option (List Piece × List Char)
  | [] => none
  | '"' :: rest => some (found, rest)
  | '\\' :: 'u' :: a :: b :: c :: d :: rest =>
    match unit? a b c d with
    | some n => pieces? (.unit n :: found) rest
    | none => none
  | '\\' :: e :: rest =>
    match escapeOf? e with
    | some c => pieces? (.char c :: found) rest
    | none => none
  | c :: rest => if c.toNat < 0x20 ∨ c = '\\' then none else pieces? (.char c :: found) rest

/-- The text of the pieces. Two halves of a surrogate pair make one character. -/
def combine : List Piece → List Rune
  | .unit h :: .unit l :: rest =>
    if 0xD800 ≤ h ∧ h < 0xDC00 ∧ 0xDC00 ≤ l ∧ l < 0xE000 then
      .char (Char.ofNat (0x10000 + (h - 0xD800) * 0x400 + (l - 0xDC00))) :: combine rest
    else .ofNat h :: combine (.unit l :: rest)
  | .unit n :: rest => .ofNat n :: combine rest
  | .char c :: rest => .char c :: combine rest
  | [] => []

/-- A part of a number: an optional sign, at least one digit, and the text after them. -/
def digits? (cs : List Char) : Option (List Char × List Char) :=
  let ds := cs.takeWhile Char.isDigit
  if ds.isEmpty then none else some (ds, cs.dropWhile Char.isDigit)

/-- The whole part of a number: a lone zero, or digits that begin with another one. -/
def wholePart? : List Char → Option (List Char × List Char)
  | '0' :: rest => some (['0'], rest)
  | cs => digits? cs

/-- The fraction of a number, if a dot and a digit follow. -/
def fraction (cs : List Char) : List Char × List Char :=
  match cs with
  | '.' :: rest =>
    match digits? rest with
    | some (ds, rest) => ('.' :: ds, rest)
    | none => ([], cs)
  | _ => ([], cs)

/-- The exponent of a number, if one follows. -/
def exponent (cs : List Char) : List Char × List Char :=
  match cs with
  | e :: rest =>
    if e = 'e' ∨ e = 'E' then
      let (sign, rest) := match rest with
        | '+' :: rest => (['+'], rest)
        | '-' :: rest => (['-'], rest)
        | _ => ([], rest)
      match digits? rest with
      | some (ds, rest) => (e :: sign ++ ds, rest)
      | none => ([], cs)
    else ([], cs)
  | [] => ([], cs)

/-- A number after its sign, as far as it reaches, and the text after it. Only a number without a
fraction and an exponent is whole. -/
def number? (limits : Limits) (sign cs : List Char) : Option (Token × List Char) :=
  (wholePart? cs).map fun (whole, rest) =>
    let (frac, rest) := fraction rest
    let (exp, rest) := exponent rest
    if frac.isEmpty ∧ exp.isEmpty ∧ limits.digits < whole.length then
      (.longNumber whole.length, rest)
    else (.scalar (.number (String.ofList (sign ++ whole ++ frac ++ exp))), rest)

/-- The words that are values. -/
def words : List (List Char × Json) :=
  [("null".toList, .null), ("true".toList, .bool true), ("false".toList, .bool false),
    ("NaN".toList, .number "NaN"), ("Infinity".toList, .number "Infinity"),
    ("-Infinity".toList, .number "-Infinity")]

/-- The word that the text begins with, as a value, and the text after it. -/
def word? (cs : List Char) : Option (Json × List Char) :=
  words.findSome? fun (w, v) => if w.isPrefixOf cs then some (v, cs.drop w.length) else none

/-- A value without parts, other than a string, and the text after it. -/
def scalar? (limits : Limits) (cs : List Char) : Option (Token × List Char) :=
  match word? cs with
  | some (v, rest) => some (.scalar v, rest)
  | none =>
    match cs with
    | '-' :: rest => number? limits ['-'] rest
    | _ => number? limits [] cs

/-- The first token of a text that does not begin with a blank, and the text after it. -/
def token? (limits : Limits) (cs : List Char) : Option (Token × List Char) :=
  match cs with
  | '[' :: rest => some (.openArray, rest)
  | ']' :: rest => some (.closeArray, rest)
  | '\x7b' :: rest => some (.openObject, rest)
  | '\x7d' :: rest => some (.closeObject, rest)
  | ',' :: rest => some (.comma, rest)
  | ':' :: rest => some (.colon, rest)
  | '"' :: rest => (pieces? [] rest).map fun (ps, rest) => (.string (combine ps.reverse), rest)
  | _ => scalar? limits cs

/-- Whether the character may stand between tokens. -/
def isSpace (c : Char) : Bool := c == ' ' || c == '\t' || c == '\n' || c == '\r'

/-! ## Values -/

/-- Sets the field that has the text as its name. -/
def putField (fields : List (String × Json)) (name : List Rune) (v : Json) :
    List (String × Json) :=
  putEntry fields (Text.rendered name) v

/-- An array or object whose end has not come yet: the items so far, last first, or the fields so
far and the name whose value comes next. -/
inductive Pending where
  | array (items : List Json)
  | object (fields : List (String × Json)) (name : List Rune)

/-- What may come next. -/
inductive Place where
  | value
  /-- A value, or the end of an array that has no items yet. -/
  | firstItem
  /-- The name of a field, or the end of an object that has no fields yet. -/
  | firstName
  | name (fields : List (String × Json))
  | colon (fields : List (String × Json)) (name : List Rune)
  /-- The end of the text, or what follows a value in the innermost array or object. -/
  | after (v : Json)

/-- The state of the machine: how many arrays and objects are open, those of them whose next part is
a value, innermost first, and what may come next. -/
structure State where
  depth : Nat := 0
  stack : List Pending := []
  place : Place := .value

namespace State

/-- Opens an array or object, unless too many are open. -/
def enter (limits : Limits) (s : State) (c : Container) (stack : List Pending) (place : Place) :
    Except ReadError State :=
  if s.depth < limits.nesting then .ok ⟨s.depth + 1, stack, place⟩
  else .error (.beyond (.nesting c))

/-- Closes an array or object, which is now a complete value. -/
def leave (s : State) (stack : List Pending) (v : Json) : State := ⟨s.depth - 1, stack, .after v⟩

/-- Takes a token where a value has to come. -/
def takeValue (limits : Limits) (s : State) : Token → Except ReadError State
  | .scalar v => .ok { s with place := .after v }
  | .string rs => .ok { s with place := .after (.ofRunes rs) }
  | .longNumber digits => .error (.beyond (.digits limits.digits digits))
  | .openArray => s.enter limits .array (.array [] :: s.stack) .firstItem
  | .openObject => s.enter limits .object s.stack .firstName
  | _ => .error .malformed

/-- Takes a token after a complete value. -/
def takeAfter (s : State) (v : Json) : List Pending → Token → Except ReadError State
  | .array items :: stack, .comma =>
    .ok { s with stack := .array (v :: items) :: stack, place := .value }
  | .array items :: stack, .closeArray => .ok (s.leave stack (.array (v :: items).reverse))
  | .object fields name :: stack, .comma =>
    .ok { s with stack, place := .name (putField fields name v) }
  | .object fields name :: stack, .closeObject =>
    .ok (s.leave stack (.object (putField fields name v)))
  | _, _ => .error .malformed

/-- Takes one token. -/
def take (limits : Limits) (s : State) (t : Token) : Except ReadError State :=
  match s.place, t with
  | .value, t => s.takeValue limits t
  | .firstItem, .closeArray => .ok (s.leave (s.stack.drop 1) (.array []))
  | .firstItem, t => s.takeValue limits t
  | .firstName, .closeObject => .ok (s.leave s.stack (.object []))
  | .firstName, .string name => .ok { s with place := .colon [] name }
  | .name fields, .string name => .ok { s with place := .colon fields name }
  | .colon fields name, .colon =>
    .ok { s with stack := .object fields name :: s.stack, place := .value }
  | .after v, t => s.takeAfter v s.stack t
  | _, _ => .error .malformed

/-- The value, if it is complete. -/
def result (s : State) : Except ReadError Json :=
  match s.stack, s.place with
  | [], .after v => .ok v
  | _, _ => .error .malformed

/-- Takes the tokens of a text, at most as many as `fuel`. -/
def run (limits : Limits) : (fuel : Nat) → State → List Char → Except ReadError Json
  | 0, _, _ => .error .malformed
  | fuel + 1, s, cs =>
    match cs.dropWhile isSpace with
    | [] => s.result
    | cs =>
      match token? limits cs with
      | none => .error .malformed
      | some (t, rest) =>
        match s.take limits t with
        | .error e => .error e
        | .ok s => run limits fuel s rest

end State

/-- The value that a text writes. Each token has at least one character. -/
def parse (limits : Limits) (s : String) : Except ReadError Json :=
  State.run limits (s.length + 1) {} s.toList

/-- The value that a text writes, if it writes one within the usual limits. -/
def parse? (s : String) : Option Json := (parse {} s).toOption

end BuildLens.Json
