/-!
# Options and operands

The arguments of a command are options and operands. An option is written by its long name, with its
value attached or as the next argument, whatever that looks like; a letter stands for an option
without a value, and several letters may follow one dash. After a double dash there are operands
only. A lone dash is an operand.

Main definitions:

- `Switch`: an option that a command takes.
- `Arguments`, `Arguments.read`: options and operands.
- `Refusal`: why arguments are not taken.
-/

namespace BuildLens

/-- Why arguments are not taken: help is asked for, or they are wrong. -/
inductive Refusal where
  | help
  | misuse
deriving DecidableEq, Repr

/-- An option that a command takes: its long name without dashes, and the letter that stands for it,
if there is one. -/
structure Switch where
  name : String
  letter : Option Char := none
  hasValue : Bool := false
deriving DecidableEq, Repr

/-- Options and operands, each in order. The options stand under their long names. -/
structure Arguments where
  options : List (String × Option String) := []
  operands : List String := []
deriving DecidableEq, Repr

namespace Arguments

/-- Whether an option is given. -/
def has (a : Arguments) (name : String) : Bool := a.options.any (·.1 == name)

/-- The value of an option; the last one counts. -/
def value? (a : Arguments) (name : String) : Option String := a.options.reverse.lookup name |>.join

/-- Whether an argument is written as an option. -/
def isOption (arg : List Char) : Bool := arg.head? == some '-' && 1 < arg.length

/-- The options that letters stand for; each letter has to stand for one. -/
def ofLetters (switches : List Switch) (letters : List Char) :
    Except Refusal (List (String × Option String)) :=
  letters.mapM fun c =>
    match switches.find? fun s => s.letter == some c && !s.hasValue with
    | some s => .ok (s.name, none)
    | none => .error .misuse

/-- A long name, and the value attached to it by an equals sign. -/
def splitValue (cs : List Char) : String × Option String :=
  let name := String.ofList (cs.takeWhile (· != '='))
  match cs.dropWhile (· != '=') with
  | [] => (name, none)
  | _ :: value => (name, some (String.ofList value))

/-- The options and operands of a command that takes the given options. If operands and options do
not mix, the first operand is followed by operands only. -/
def read (switches : List Switch) (mixed : Bool) : List String → Except Refusal Arguments
  | [] => .ok {}
  | arg :: rest =>
    let cs := arg.toList
    if arg == "--" then .ok { operands := rest }
    else if !isOption cs then
      if mixed then (read switches mixed rest).map fun a => { a with operands := arg :: a.operands }
      else .ok { operands := arg :: rest }
    else if cs.take 2 != ['-', '-'] then do
      let options ← ofLetters switches (cs.drop 1)
      let a ← read switches mixed rest
      return { a with options := options ++ a.options }
    else
      let (name, attached) := splitValue (cs.drop 2)
      let found (value : Option String) (a : Arguments) : Arguments :=
        { a with options := (name, value) :: a.options }
      match switches.find? (·.name == name) with
      | none => .error .misuse
      | some s =>
        match s.hasValue, attached, rest with
        | true, some value, rest => (read switches mixed rest).map (found (some value))
        | true, none, value :: rest => (read switches mixed rest).map (found (some value))
        | false, none, rest => (read switches mixed rest).map (found none)
        | _, _, _ => .error .misuse

end Arguments

end BuildLens
