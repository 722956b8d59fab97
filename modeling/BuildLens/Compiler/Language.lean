/-!
# Languages

The languages that a build compiles, each with a compiler of its own.
-/

namespace BuildLens

/-- A language whose files are compiled. -/
inductive Language where
  | c
  | cpp
deriving DecidableEq, Repr

namespace Language

/-- The short name of the language. -/
def name : Language → String
  | .c => "c"
  | .cpp => "cpp"

/-- The language with the given short name. -/
def ofName? : String → Option Language
  | "c" => some .c
  | "cpp" => some .cpp
  | _ => none

end Language

end BuildLens
