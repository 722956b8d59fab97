/-!
# Limits of reading JSON

A reader keeps to limits, so that no text can take up all of the memory: on how many arrays and
objects may be open at a time, and on how many digits a whole number may have. The first one is what
is left of the stack of the program when it begins to read, and so it differs from caller to caller.

Main definitions:

- `Json.Limits`: the limits of a reader.
- `Json.Limit`, `Json.Limit.message`: a limit that a text goes beyond.
- `Json.ReadError`: why a text cannot be read.
-/

namespace BuildLens.Json

/-- The limits of a reader: the greatest number of arrays and objects that are open at a time, and
the greatest number of digits of a whole number. The usual values are those of a program that reads
before it has called much else. -/
structure Limits where
  nesting : Nat := 985
  digits : Nat := 4300
deriving DecidableEq, Repr

/-- A value that has parts. -/
inductive Container where
  | array
  | object
deriving DecidableEq, Repr

/-- The name of the kind of value. -/
def Container.name : Container → String
  | .array => "array"
  | .object => "object"

/-- A limit that a text goes beyond: as many arrays and objects are open as may be, and one more
begins, or a whole number has more digits than it may have. -/
inductive Limit where
  | nesting (begun : Container)
  | digits (most count : Nat)
deriving DecidableEq, Repr

/-- The text shown when the limit is met. -/
def Limit.message : Limit → String
  | .nesting begun =>
    s!"maximum recursion depth exceeded while decoding a JSON {begun.name} from a unicode string"
  | .digits most count =>
    s!"Exceeds the limit ({most} digits) for integer string conversion: " ++
      s!"value has {count} digits; use sys.set_int_max_str_digits() to increase the limit"

/-- Why a text cannot be read: it is not JSON, or it goes beyond a limit. -/
inductive ReadError where
  | malformed
  | beyond (limit : Limit)
deriving DecidableEq, Repr

end BuildLens.Json
