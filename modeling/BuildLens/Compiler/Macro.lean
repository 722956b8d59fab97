import BuildLens.Table
import BuildLens.Text.Split

/-!
# Preprocessor macros

Main definitions:

- `Macro`: a macro with its value; a macro given without a value has the value `1`.
- `Macro.parse`: reading a macro from a flag or from a compiler's own list.
- `MacroTable`: the macros in force.
-/

namespace BuildLens

/-- A preprocessor macro. -/
structure Macro where
  name : String
  value : String := "1"
deriving DecidableEq, Repr

namespace Macro

/-- The macro as a name and a value with an equals sign between them. -/
def text (m : Macro) : String := m.name ++ "=" ++ m.value

instance : ToString Macro where
  toString := text

/-- The macro that a text defines, the name ending at the first `sep`. -/
def parse (sep : Char) (cs : List Char) : Macro :=
  match Text.cutAt sep cs with
  | (name, some value) => ⟨String.ofList name, String.ofList value⟩
  | (name, none) => { name := String.ofList name }

/-- The macro that a text defines, the name ending at the first `sep`, which may not be empty. -/
def parse? (sep text : String) : Option Macro :=
  if sep.isEmpty then none
  else match Text.cutText sep.toList text.toList with
    | some (name, value) => some ⟨String.ofList name, String.ofList value⟩
    | none => some { name := text }

end Macro

/-- The macros in force, by name. -/
abbrev MacroTable := Table String

namespace MacroTable

/-- The table after one more definition. -/
def define (t : MacroTable) (m : Macro) : MacroTable := t.insert m.name m.value

/-- The macros of the table. -/
def macros (t : MacroTable) : List Macro := t.entries.map fun e => ⟨e.1, e.2⟩

end MacroTable

end BuildLens
