import BuildLens.Text.Blank

/-!
# Words of a command line

A flag string is cut into words in the way of a POSIX shell, for as much of its syntax as build
tools write. Blanks outside quotes separate words. Spans in single or double quotes join the word
around them. In a span a backslash escapes the span's quote, and in double quotes also another
backslash; outside spans it escapes a blank, a quote or a backslash, and stands for itself before
anything else, so that Windows paths survive. A span that is not closed runs to the end. Words
without characters are dropped.

Main definitions:

- `Shell.Mode`, `Shell.wordsFrom`: the scanner.
- `Shell.words`: the words of a command line.
-/

namespace BuildLens.Shell

open Text (isBlank)

/-- Whether the character opens or closes a span. -/
def isQuote (c : Char) : Bool := c == '"' || c == '\''

/-- Where the scanner is: outside spans, or inside one that the given quote opened. -/
inductive Mode where
  | plain
  | span (quote : Char)
deriving DecidableEq, Repr

/-- Whether a backslash before the character is an escape. -/
def Mode.escapes : Mode → Char → Bool
  | .plain, c => isBlank c || isQuote c || c == '\\'
  | .span q, c => c == q || (q == '"' && c == '\\')

/-- The word that was read, its characters being kept last first, if it has any. -/
def finish (word : List Char) : List (List Char) :=
  if word.isEmpty then [] else [word.reverse]

/-- The words of a text, `word` being the word begun before it, last character first. -/
def wordsFrom : Mode → (word : List Char) → List Char → List (List Char)
  | _, word, [] => finish word
  | mode, word, '\\' :: next :: rest =>
    if mode.escapes next then wordsFrom mode (next :: word) rest
    else wordsFrom mode ('\\' :: word) (next :: rest)
  | .plain, word, c :: rest =>
    if isBlank c then finish word ++ wordsFrom .plain [] rest
    else if isQuote c then wordsFrom (.span c) word rest
    else wordsFrom .plain (c :: word) rest
  | .span q, word, c :: rest =>
    if c = q then wordsFrom .plain word rest else wordsFrom (.span q) (c :: word) rest

/-- The words of a command line. -/
def words (commandLine : String) : List String :=
  (wordsFrom .plain [] commandLine.toList).map String.ofList

end BuildLens.Shell
