import BuildLens.Shell.Argument

/-!
# Quoting for a shell

A word is written so that a POSIX shell reads it back as one word: as it is when all its characters
are harmless, and otherwise between single quotes, where a single quote is written between double
quotes of its own.

Main definitions:

- `Shell.isHarmless`, `Shell.quoteWord`: one word.
- `Shell.quote`, `Shell.quoteWith`: a command line of several words.
-/

namespace BuildLens.Shell

/-- Whether the character means nothing to a shell. -/
def isHarmless (c : Char) : Bool :=
  c.isAlphanum || "_@%+=:,./-".toList.contains c

/-- How one character is written between single quotes. -/
def quoteChar (c : Char) : List Char := if c = '\'' then "'\"'\"'".toList else [c]

/-- A word as it is written for a shell. -/
def quoteWord (cs : List Char) : List Char :=
  if cs.isEmpty then ['\'', '\'']
  else if cs.all isHarmless then cs
  else '\'' :: cs.flatMap quoteChar ++ ['\'']

/-- The command line that a shell reads as the given words. -/
def quote (words : List String) : String :=
  " ".intercalate (words.map fun w => String.ofList (quoteWord w.toList))

/-- The command line of the arguments, paths written by `write`. -/
def quoteWith {ε : Type} (write : FilePath → Except ε String) (args : List Argument) :
    Except ε String :=
  (args.mapM (Argument.renderWith write)).map quote

end BuildLens.Shell
