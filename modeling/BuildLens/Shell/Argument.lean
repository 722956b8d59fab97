import BuildLens.Path.FilePath
import BuildLens.Shell.Words

/-!
# Arguments of a command

An argument is a text or a path. Paths are kept as paths until the command is run, since how they
are written depends on who runs it.

Main definitions:

- `Argument`, `Argument.render`, `Argument.renderWith`.
- `Argument.ofWord`, `Argument.ofExistingWord`: the argument that a word of a command line stands
  for.
- `Argument.parse`: the arguments of a command line.
-/

namespace BuildLens

/-- An argument of a command: a text or a path. -/
inductive Argument where
  | text (s : String)
  | path (p : FilePath)
deriving DecidableEq, Repr

instance : Coe String Argument := ⟨.text⟩

namespace Argument

/-- The text of the argument, paths written by `write`, which may fail. -/
def renderWith {ε : Type} (write : FilePath → Except ε String) : Argument → Except ε String
  | .text s => .ok s
  | .path p => write p

/-- The text of the argument. -/
def render : Argument → String
  | .text s => s
  | .path p => p.text

/-- The argument that a word stands for: a word that begins with a slash is a path. -/
def ofWord (platform : Platform) (word : String) : Except PathError Argument :=
  if word.toList.head? = some '/' then (FilePath.ofUnixText platform word).map .path
  else .ok (.text word)

/-- The argument that a word stands for: a word that begins with a slash and leads somewhere is a
path. -/
def ofExistingWord (platform : Platform) (leadsSomewhere : String → Bool) (word : String) :
    Argument :=
  match FilePath.ofText? platform word with
  | some p => if word.toList.head? = some '/' ∧ leadsSomewhere word then .path p else .text word
  | none => .text word

/-- The arguments of a command line, words that begin with a slash being paths. -/
def parse (platform : Platform) (commandLine : String) : Except PathError (List Argument) :=
  (Shell.words commandLine).mapM (ofWord platform)

end Argument

/-- Flags as plain words: no word is taken for a path. -/
def Shell.flags (commandLine : String) : List Argument :=
  (Shell.words commandLine).map .text

end BuildLens
