import BuildLens.Json.Basic
import BuildLens.Table

/-!
# Reading records from JSON

A record is read field by field. A value of the wrong kind is a fault, which is noted with its
place; the reading then goes on, so that all faults are found and not only the first.

Main definitions:

- `Json.Fault`: a fault with its place.
- `Json.Reading`, `Json.Reading.result`: reading that notes faults.
- `Json.readText`, `Json.readTexts`, `Json.readTextTable`, `Json.readRecord`: readers.
-/

namespace BuildLens.Json

open Text (Rune)

/-- One step on the way from a value to one of its parts. -/
inductive Step where
  | field (name : String)
  | item (index : Nat)
deriving DecidableEq, Repr

/-- What is wrong with a value: it is not a string, not a well-formed one where that is wanted, not
an array, not an object with free names, not one with given fields, or none of the values to choose
from. -/
inductive FaultKind where
  | notString
  | illFormed
  | notArray
  | notTable
  | notRecord
  | notChoice
deriving DecidableEq, Repr

/-- A value of the wrong kind, and the way to it. -/
structure Fault where
  place : List Step
  kind : FaultKind
deriving DecidableEq, Repr

/-- What stands in messages for the particulars of a fault, which are kept as data instead. -/
def particulars : String := "<detail>"

/-- A value that was read, and the faults noted on the way, in the order in which they were met.
Where a fault was noted, something stands in the place of the value. -/
structure Reading (α : Type) where
  value : α
  faults : List Fault := []

namespace Reading

instance : Monad Reading where
  pure a := { value := a }
  bind r f :=
    let s := f r.value
    { value := s.value, faults := r.faults ++ s.faults }

/-- A fault, and what to go on with. -/
def fault {α : Type} (place : List Step) (kind : FaultKind) (instead : α) : Reading α :=
  { value := instead, faults := [⟨place, kind⟩] }

/-- The value, if there is no fault. -/
def result {α : Type} (r : Reading α) : Except (List Fault) α :=
  if r.faults.isEmpty then .ok r.value else .error r.faults

end Reading

/-- Reads a string, which need not be well-formed. -/
def readText (place : List Step) : Json → Reading String
  | .string s => pure s
  | .illFormed rs => pure (Text.rendered rs)
  | _ => .fault place .notString ""

/-- Reads the items of an array of strings. -/
def readItems (place : List Step) : (index : Nat) → List Json → Reading (List String)
  | _, [] => pure []
  | index, j :: js => do
    let s ← readText (place ++ [.item index]) j
    return s :: (← readItems place (index + 1) js)

/-- Reads an array of strings. -/
def readTexts (place : List Step) : Json → Reading (List String)
  | .array items => readItems place 0 items
  | _ => .fault place .notArray []

/-- Reads fields, each by its name and its value. -/
def readFields {α : Type} (read : List Step → Json → Reading α) (place : List Step) :
    List (String × Json) → Reading (List (String × α))
  | [] => pure []
  | (name, j) :: rest => do
    let v ← read (place ++ [.field name]) j
    return (name, v) :: (← readFields read place rest)

/-- Reads an object with free names. -/
def readTable {α : Type} (read : List Step → Json → Reading α) (place : List Step) :
    Json → Reading (List (String × α))
  | .object fields => readFields read place fields
  | _ => .fault place .notTable []

/-- Reads an object whose values are strings. -/
def readTextTable (place : List Step) (j : Json) : Reading (Table String) := do
  return Table.ofList (← readTable readText place j)

/-- Reads an object with given fields; `instead` takes the place of anything else. -/
def readRecord {α : Type} (instead : α) (read : Json → Reading α) (place : List Step) (j : Json) :
    Reading α :=
  match j with
  | .object _ => read j
  | _ => .fault place .notRecord instead

/-- Reads a field that may be missing. -/
def readField {α : Type} (read : List Step → Json → Reading α) (place : List Step)
    (record : Json) (name : String) : Reading (Option α) :=
  match record.get? name with
  | some j => return some (← read (place ++ [.field name]) j)
  | none => pure none

end BuildLens.Json
