import BuildLens.System.SystemError
import BuildLens.Text.Line
import BuildLens.Text.Split
import BuildLens.Text.Utf8

/-!
# File trees

A file tree says what the paths of a system name: directories, regular files and symbolic links. A
path is looked up name by name. Links are followed, up to forty of them; empty names and `.` stay
where they are, and `..` goes up.

The tree is simpler than the system in some ways: names may be of any length, every directory may be
searched, and a file can be told of even where it cannot be opened.

Main definitions:

- `FileTree`, `FileTree.put`, `FileTree.remove`: trees and their changes.
- `FileTree.resolve`, `FileTree.find`: look-up.
- `FileTree.isFile`, `FileTree.isDirectory`, `FileTree.kind`, `FileTree.mtime`,
  `FileTree.readBytes`: questions.
- `FileTree.realPath`: a path without links.
-/

namespace BuildLens

/-- A regular file: its bytes, the time of the last change in nanoseconds, and why it cannot be
opened if it cannot. -/
structure FileEntry where
  content : List UInt8
  mtime : Int := 0
  fault : Option Errno := none
deriving DecidableEq, Repr

/-- What a path names. A link holds the path to which it leads. -/
inductive Entry where
  | directory
  | file (file : FileEntry)
  | link (target : List Char)
deriving DecidableEq, Repr

/-- Whether the entry is a directory. -/
def Entry.isDirectory : Entry → Bool
  | .directory => true
  | _ => false

/-- What a path leads to: a directory, a regular file, or something else, such as a device. -/
inductive EntryKind where
  | directory
  | file
  | other
deriving DecidableEq, Repr

/-- The kind of the entry. -/
def Entry.kind : Entry → EntryKind
  | .directory => .directory
  | .file _ => .file
  | .link _ => .other

/-- The place of an entry: the names from the root down. -/
abbrev Place := List (List Char)

/-- The names of a path text, without those that stay in place. -/
def Place.ofChars (cs : List Char) : Place :=
  (Text.splitAt '/' cs).filter fun n => n ≠ [] ∧ n ≠ ['.']

/-- A tree of files, and the directory from which relative paths start. Of several entries for one
place the first one counts. -/
structure FileTree where
  entries : List (Place × Entry)
  cwd : Place
deriving DecidableEq, Repr

namespace FileTree

/-- The entry at a place, which is reached without following links. The root is a directory. -/
def at? (t : FileTree) (place : Place) : Option Entry :=
  if place = [] then some .directory else t.entries.lookup place

/-- The places above a place, the root first. -/
def above (place : Place) : List Place := (List.range place.length).map place.take

/-- Puts an entry at a place, and directories at the missing places above it. -/
def put (t : FileTree) (place : Place) (e : Entry) : FileTree :=
  let missing := (above place).filter fun p => (t.at? p).isNone
  { t with
    entries := missing.map (·, .directory) ++ (place, e) :: t.entries.filter (·.1 ≠ place) }

/-- Removes a place and all that lies below it. -/
def remove (t : FileTree) (place : Place) : FileTree :=
  { t with entries := t.entries.filter fun e => !place.isPrefixOf e.1 }

/-- The tree that holds the root and the current directory only. -/
def empty (cwd : Place) : FileTree := put ⟨[], cwd⟩ cwd .directory

/-- Whether the text is an absolute path. -/
def isAbsolute (cs : List Char) : Bool := cs.head? == some '/'

/-- The greatest number of links followed in one look-up. -/
def maxLinks : Nat := 40

/-- Walks from a directory along names and answers with the place reached, which may be that of a
link only if the last name is not to be followed. `links` is the number of links that still may be
followed. -/
def walk (t : FileTree) (followLast : Bool) (links : Nat) (here : Place) :
    (names : Place) → Except Errno Place
  | [] => .ok here
  | name :: rest =>
    if !((t.at? here).any Entry.isDirectory) then .error .notDirectory
    else if name = ['.', '.'] then walk t followLast links here.dropLast rest
    else
      let next := here ++ [name]
      match t.at? next with
      | none => .error .noEntry
      | some (.link target) =>
        if rest = [] ∧ !followLast then .ok next
        else match links with
          | 0 => .error .tooManyLinks
          | links + 1 =>
            walk t followLast links (if isAbsolute target then [] else here)
              (Place.ofChars target ++ rest)
      | some _ => walk t followLast links next rest
termination_by names => (links, names.length)

/-- The names along which a path text is walked from the root. A relative path follows the names of
the current directory, which may be links themselves. -/
def namesOf (t : FileTree) (path : List Char) : Place :=
  if isAbsolute path then Place.ofChars path else t.cwd ++ Place.ofChars path

/-- The place that a path text leads to. -/
def resolve (t : FileTree) (path : List Char) (followLast : Bool) : Except Errno Place :=
  if path = [] then .error .noEntry else t.walk followLast maxLinks [] (t.namesOf path)

/-- The entry that a path text leads to, links followed. -/
def find (t : FileTree) (path : List Char) : Except Errno Entry := do
  match t.at? (← t.resolve path true) with
  | some e => .ok e
  | none => .error .noEntry

/-- Whether the path leads to anything. -/
def leadsSomewhere (t : FileTree) (path : List Char) : Bool :=
  match t.find path with
  | .ok _ => true
  | .error _ => false

/-- Whether the path leads to a regular file. -/
def isFile (t : FileTree) (path : List Char) : Bool :=
  match t.find path with
  | .ok (.file _) => true
  | _ => false

/-- Whether the path leads to a directory. -/
def isDirectory (t : FileTree) (path : List Char) : Bool :=
  match t.find path with
  | .ok .directory => true
  | _ => false

/-- What the path leads to, or why it leads nowhere. -/
def kind (t : FileTree) (path : List Char) : Except Errno EntryKind :=
  (t.find path).map Entry.kind

/-- The time of the last change of what the path leads to. -/
def mtime (t : FileTree) (path : List Char) : Except Errno Int :=
  (t.find path).map fun
    | .file f => f.mtime
    | _ => 0

/-- The bytes of the file that the path leads to. -/
def readBytes (t : FileTree) (path : List Char) : Except Errno (List UInt8) := do
  match ← t.find path with
  | .file f =>
    match f.fault with
    | some errno => .error errno
    | none => .ok f.content
  | _ => .error .isDirectory

/-- Whether a place holds a link. -/
def linkAt? (t : FileTree) (place : Place) : Option (List Char) :=
  match t.at? place with
  | some (.link target) => some target
  | _ => none

/-- Whether looking up a place without following a last link leads to a link; if so, its target. -/
def linkAlong? (t : FileTree) (place : Place) : Option (List Char) :=
  match t.walk false maxLinks [] place with
  | .ok p => t.linkAt? p
  | .error _ => none

/-- Resolves the links along some names, one level of nesting for each unit of `depth`, and answers
with the place reached and whether all links could be resolved. `entered` holds the links that are
being resolved: one that is met again is a loop, and it is left as it is with all that follows. -/
def realNames (t : FileTree) : (depth : Nat) → (entered : List Place) → (here : Place) →
    (names : Place) → Place × Bool
  | _, _, here, [] => (here, true)
  | depth, entered, here, name :: rest =>
    if name = ['.', '.'] then realNames t depth entered here.dropLast rest
    else
      let next := here ++ [name]
      match t.linkAlong? next with
      | none => realNames t depth entered next rest
      | some target =>
        if next ∈ entered then (next ++ rest, false)
        else match depth with
          | 0 => (next ++ rest, false)
          | depth + 1 =>
            let (there, ok) := realNames t depth (next :: entered)
              (if isAbsolute target then [] else here) (Place.ofChars target)
            if ok then realNames t (depth + 1) entered there rest else (there ++ rest, false)
termination_by depth _ _ names => (depth, names.length)

/-- The place that a path leads to, links resolved name by name. Names that do not exist are kept,
and a loop of links leaves the rest as it is. -/
def realPath (t : FileTree) (path : List Char) : Place :=
  let (place, _) := t.realNames (t.entries.length + 1) []
    (if isAbsolute path then [] else t.cwd) (Place.ofChars path)
  place.foldl (fun names n => if n = ['.', '.'] then names.dropLast else names ++ [n]) []

end FileTree

/-- The text of a file, faults of its encoding replaced, with line feeds for all line ends. -/
def Text.ofBytes (bytes : List UInt8) : String :=
  String.ofList (Text.normalizeNewlines (Text.Utf8.decode bytes))

end BuildLens
