import BuildLens.Path.Extension
import BuildLens.Text.Split

/-!
# Absolute paths of POSIX systems

An absolute path is a root and a list of names. There are two roots, since a path that begins with
exactly two slashes may mean something else than one that begins with a single slash. A name is not
empty, holds no slash, and is neither `.` nor `..`, so each path has exactly one text: paths are
equal when their texts are.

The names of a system are bytes, and need not be UTF-8. So names and paths are over an alphabet:
over characters, if nothing else is said, and over `Text.Rune` if there may be halves of surrogate
pairs in their texts.

Main definitions:

- `Posix.Name`, `Posix.Path`: names and paths.
- `Posix.Path.ofChars?`, `Posix.Path.chars`: reading and writing.
- `Posix.Path.enter`, `Posix.Path.parent`, `Posix.Path.suffixed`: navigation.
- `Posix.Path.relativeTo?`: paths below another.
- `Posix.Path.ofText?`, `Posix.Path.text`, `Posix.Path.join`, `Posix.Path.withSuffix`: the same for
  strings.
-/

namespace BuildLens

open Text (Alphabet splitAt)
open Text.Alphabet (slash dot)

namespace Posix

/-- What a path begins with: a single slash, or exactly two. -/
inductive Root where
  | single
  | double
deriving DecidableEq, Repr

variable {α : Type} [Alphabet α]

/-- The text of a root. -/
def Root.text : Root → List α
  | .single => [slash]
  | .double => [slash, slash]

/-- Texts that can name an entry of a directory. -/
def IsName (n : List α) : Prop := n ≠ [] ∧ n ≠ [dot] ∧ n ≠ [dot, dot] ∧ slash ∉ n

instance [DecidableEq α] (n : List α) : Decidable (IsName n) :=
  inferInstanceAs (Decidable (_ ∧ _ ∧ _ ∧ _))

/-- The name of an entry of a directory, by the text that it is. -/
structure Name (α : Type := Char) [Alphabet α] where
  chars : List α
  isName : IsName chars
deriving DecidableEq, Repr

/-- The text of a name. -/
def Name.text (n : Name) : String := String.ofList n.chars

/-- An absolute path: a root, and the names from there down. -/
structure Path (α : Type := Char) [Alphabet α] where
  root : Root
  names : List (Name α)
deriving DecidableEq, Repr

namespace Path

/-- The characters of the path: its root, then the names with a slash between each two. -/
def chars (p : Path α) : List α := p.root.text ++ [slash].intercalate (p.names.map Name.chars)

/-- The directory that holds the path; a root holds itself. -/
def parent (p : Path α) : Path α := { p with names := p.names.dropLast }

/-- The last name, or nothing for a root. -/
def lastChars (p : Path α) : List α := (p.names.getLast?.map Name.chars).getD []

section

variable [DecidableEq α]

/-- One step along a path: a name goes down, `..` goes up if it can, an empty piece and `.` stay. -/
def walk (names : List (Name α)) (piece : List α) : List (Name α) :=
  if h : IsName piece then names ++ [⟨piece, h⟩]
  else if piece = [dot, dot] then names.dropLast
  else names

/-- The path reached from `p` by the pieces of a relative text. -/
def follow (p : Path α) (relative : List α) : Path α :=
  { p with names := (splitAt slash relative).foldl walk p.names }

/-- The root that a text begins with, if it is absolute. -/
def rootOf? (cs : List α) : Option Root :=
  if cs.head? = some slash then
    if cs[1]? = some slash ∧ cs[2]? ≠ some slash then some .double else some .single
  else none

/-- The path that an absolute text stands for. -/
def ofChars? (cs : List α) : Option (Path α) := (rootOf? cs).map fun root => follow ⟨root, []⟩ cs

/-- The path that a text means when it is read in the directory `p`. -/
def enter (p : Path α) (part : List α) : Path α :=
  match ofChars? part with
  | some q => q
  | none => p.follow part

/-- The path with another extension; the dot of the extension may be left out. -/
def suffixed (p : Path α) (suffix : List α) : Path α :=
  let suffix := if suffix.head? = some dot then suffix else dot :: suffix
  p.parent.follow ((splitExtension p.lastChars).1 ++ suffix)

/-- The names that lead from `base` to `p`, if `p` is at or below `base`. -/
def relativeTo? (p base : Path α) : Option (List (Name α)) :=
  if p.root = base.root ∧ base.names <+: p.names then some (p.names.drop base.names.length)
  else none

end

/-! ## Paths of characters -/

/-- The text of the path. -/
def text (p : Path) : String := String.ofList p.chars

instance : ToString Path where
  toString := text

/-- The path that an absolute text stands for, or nothing if the text is not absolute. -/
def ofText? (s : String) : Option Path := ofChars? s.toList

/-- The path that `part` means when read in the directory `p`. -/
def joinPart (p : Path) (part : String) : Path := p.enter part.toList

/-- The path reached from `p` by the parts one after the other; an absolute part starts again. -/
def join (p : Path) (parts : List String) : Path := parts.foldl joinPart p

/-- The last name, or the empty text for a root. -/
def name (p : Path) : String := String.ofList p.lastChars

/-- The extension of the last name, with its dot. -/
def extension (p : Path) : String := String.ofList (splitExtension p.lastChars).2

/-- The path with another extension; the dot of `suffix` may be left out. -/
def withSuffix (p : Path) (suffix : String) : Path := p.suffixed suffix.toList

end Path

/-- The text of a path without the names that stay in place. It need not be absolute, and names that
go up are kept. -/
def tidy (s : String) : String :=
  let root := ((Path.rootOf? s.toList).map Root.text).getD []
  let names := (Text.splitAt '/' s.toList).filter fun n => n ≠ [] ∧ n ≠ ['.']
  let cs := root ++ ['/'].intercalate names
  if cs.isEmpty then "." else String.ofList cs

end Posix

end BuildLens
