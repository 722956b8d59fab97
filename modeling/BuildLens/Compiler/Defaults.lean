import BuildLens.Compiler.Macro
import BuildLens.Path.PathSet
import BuildLens.Text.Blank
import BuildLens.Text.Line

/-!
# The defaults of a compiler

Asked to preprocess nothing and to list what it knows, a compiler prints its search lists and its
macros:

    #include "..." search starts here:
    #include <...> search starts here:
     /usr/include
     /System/Library/Frameworks (framework directory)
    End of search list.
    #define __clang__ 1

Indented lines below a banner are entries of the list that the banner opens; the list ends with the
first line that is not indented.

Main definitions:

- `CompilerDefaults`: the search lists and macros found so far.
- `SearchBlock`: the search list that is open.
- `CompilerDefaults.readLine`, `CompilerDefaults.read`: reading more output.
-/

namespace BuildLens

open Text (trim trimLeft lines dropPrefix? dropSuffix?)

/-- What a compiler searches and defines on its own. The user includes are searched for files
included between quotes only. -/
structure CompilerDefaults where
  includes : PathSet := ∅
  userIncludes : PathSet := ∅
  frameworks : PathSet := ∅
  macros : MacroTable := ∅
deriving DecidableEq, Repr, Inhabited

/-- The search list that is open: the one for files included between quotes, or the one for all
files. -/
inductive SearchBlock where
  | user
  | system
deriving DecidableEq, Repr

namespace CompilerDefaults

/-- What stands after the path of a framework. -/
def frameworkMark : List Char := " (framework directory)".toList

/-- The path of an entry; one that is not absolute is none. -/
def entryPath? (platform : Platform) (entry : List Char) : Option FilePath :=
  let s := String.ofList entry
  if entry.head? = some '/' then (FilePath.ofUnixText platform s).toOption
  else FilePath.ofText? platform s

/-- Adds an entry of the open search list. -/
def addEntry (platform : Platform) (found : CompilerDefaults) (block : SearchBlock)
    (entry : List Char) : CompilerDefaults :=
  match dropSuffix? frameworkMark entry with
  | some entry =>
    match entryPath? platform entry with
    | some p => { found with frameworks := found.frameworks.insert p }
    | none => found
  | none =>
    match entryPath? platform entry, block with
    | some p, .user => { found with userIncludes := found.userIncludes.insert p }
    | some p, .system => { found with includes := found.includes.insert p }
    | none, _ => found

/-- Whether the line is indented. -/
def isIndented (line : List Char) : Bool :=
  line.head? == some ' ' || line.head? == some '\t'

/-- The search list that a banner opens, judged by the first character after `#include`. -/
def blockOf (banner : List Char) : SearchBlock :=
  if (trimLeft banner).head? = some '"' then .user else .system

/-- Reads a line that is no entry: a banner opens a list, a definition adds a macro. -/
def readBanner (found : CompilerDefaults) (line : List Char) :
    Option SearchBlock × CompilerDefaults :=
  match dropPrefix? "#include ".toList line with
  | some banner => (some (blockOf banner), found)
  | none =>
    match dropPrefix? "#define ".toList line with
    | some m => (none, { found with macros := found.macros.define (Macro.parse ' ' (trim m)) })
    | none => (none, found)

/-- Reads one line, `state` being the search list that is open and what was found so far. -/
def readLine (platform : Platform) (state : Option SearchBlock × CompilerDefaults)
    (line : List Char) : Option SearchBlock × CompilerDefaults :=
  match state with
  | (some block, found) =>
    if isIndented line then (some block, addEntry platform found block (trim line))
    else readBanner found line
  | (none, found) => readBanner found line

/-- Reads the output of one stream. -/
def read (platform : Platform) (found : CompilerDefaults) (output : String) : CompilerDefaults :=
  ((lines output.toList).foldl (readLine platform) (none, found)).2

/-- All directories that are searched, in the order in which the editor is told of them. -/
def searchPaths (d : CompilerDefaults) : PathSet :=
  (d.userIncludes.insertMany d.includes.toList).insertMany d.frameworks.toList

end CompilerDefaults

end BuildLens
