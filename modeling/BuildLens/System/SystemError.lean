import BuildLens.Text.Quoted

/-!
# Errors of the operating system

The causes that the library meets itself have names; every other one is known by its number and its
description, as the system tells them.

Main definitions:

- `Errno`: the causes, each with its number and its description.
- `Errno.isNowhere`: causes that say that a path leads nowhere.
- `SystemError`: a cause, and the path that it concerns if there is one.
-/

namespace BuildLens

/-- The numbers of the causes that have names. -/
def namedErrnos : List Nat := [2, 5, 8, 12, 13, 20, 21, 24, 40]

/-- Why the operating system refuses a request. -/
inductive Errno where
  | noEntry
  | inputOutput
  | execFormat
  | noMemory
  | permission
  | notDirectory
  | isDirectory
  | tooManyOpen
  | tooManyLinks
  | other (number : Nat) (description : String) (isOther : number ∉ namedErrnos)
deriving DecidableEq, Repr

namespace Errno

/-- The number of the cause. -/
def number : Errno → Nat
  | .noEntry => 2
  | .inputOutput => 5
  | .execFormat => 8
  | .noMemory => 12
  | .permission => 13
  | .notDirectory => 20
  | .isDirectory => 21
  | .tooManyOpen => 24
  | .tooManyLinks => 40
  | .other number _ _ => number

/-- The description of the cause. -/
def description : Errno → String
  | .noEntry => "No such file or directory"
  | .inputOutput => "Input/output error"
  | .execFormat => "Exec format error"
  | .noMemory => "Cannot allocate memory"
  | .permission => "Permission denied"
  | .notDirectory => "Not a directory"
  | .isDirectory => "Is a directory"
  | .tooManyOpen => "Too many open files"
  | .tooManyLinks => "Too many levels of symbolic links"
  | .other _ description _ => description

/-- The causes that have names, by their symbols. -/
def bySymbol : List (String × Errno) := [
  ("ENOENT", .noEntry), ("EIO", .inputOutput), ("ENOEXEC", .execFormat), ("ENOMEM", .noMemory),
  ("EACCES", .permission), ("ENOTDIR", .notDirectory), ("EISDIR", .isDirectory),
  ("EMFILE", .tooManyOpen), ("ELOOP", .tooManyLinks)]

/-- The cause with the given symbol. -/
def ofSymbol? (s : String) : Option Errno := bySymbol.lookup s

/-- Whether the cause says that a path leads nowhere: a name is missing or is none of a directory,
too many links were met, or a descriptor is not open. -/
def isNowhere (e : Errno) : Bool := e.number ∈ [2, 20, 40, 9]

end Errno

/-- An error of the operating system: the cause, and the path that the request named. -/
structure SystemError where
  errno : Errno
  path : Option String := none
deriving DecidableEq, Repr

/-- The text shown for the error. -/
def SystemError.message (e : SystemError) : String :=
  let shown := s!"[Errno {e.errno.number}] {e.errno.description}"
  match e.path with
  | some path => s!"{shown}: {Text.quoted path}"
  | none => shown

end BuildLens
