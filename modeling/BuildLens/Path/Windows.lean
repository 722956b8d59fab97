import BuildLens.Path.Extension
import BuildLens.Text.LetterCase
import BuildLens.Text.Split

/-!
# Absolute paths of Windows

A path begins with a drive: a letter and a colon, or the two names of a network share, or nothing.
It is rooted when a separator follows. Both slashes separate; the backslash is the normal one. Two
paths are the same when their texts are equal up to letter case.

Main definitions:

- `Windows.splitDrive`, `Windows.normalize`, `Windows.joinText`: the rules on plain texts.
- `Windows.Path`: a normalized absolute path, with its navigation.
- `Windows.Path.anatomy`: the drive, root and names by which paths are compared component-wise.
-/

namespace BuildLens.Windows

open Text (splitAt lower upperChar)

/-- Whether the character separates names. -/
def isSeparator (c : Char) : Bool := c == '\\' || c == '/'

/-- The text with backslashes as its only separators. -/
def backslashed (cs : List Char) : List Char := cs.map fun c => if c = '/' then '\\' else c

/-- The number of characters up to the first separator, if there is one. -/
def toSeparator? (cs : List Char) : Option Nat := cs.findIdx? isSeparator

/-- The number of characters in a share's drive whose first `start` characters are fixed: two names
with a separator between them, or all of the text if it has no more. -/
def shareLength (start : Nat) (cs : List Char) : Nat :=
  match toSeparator? (cs.drop start) with
  | none => cs.length
  | some i =>
    match toSeparator? (cs.drop (start + i + 1)) with
    | none => cs.length
    | some j => start + i + 1 + j

/-- Whether the text begins with the marker of a long network path, in any letter case. -/
def isLongShare (cs : List Char) : Bool :=
  ((backslashed (cs.take 8)).flatMap upperChar) == "\\\\?\\UNC\\".toList

/-- The drive and the rest of a text. -/
def splitDrive (cs : List Char) : List Char × List Char :=
  match cs with
  | a :: b :: _ =>
    if isSeparator a && isSeparator b then
      cs.splitAt (shareLength (if isLongShare cs then 8 else 2) cs)
    else if b = ':' then cs.splitAt 2
    else ([], cs)
  | _ => ([], cs)

/-- Whether a text is absolute: it begins with a separator, or a separator follows a character and a
colon. -/
def isAbsolute : List Char → Bool
  | a :: rest => isSeparator a || (match rest with
    | ':' :: b :: _ => isSeparator b
    | _ => false)
  | [] => false

/-- One step along the names of a path: `..` cancels the name before it, is dropped at a root, and
is kept where there is nothing to cancel. -/
def walk (rooted : Bool) (names : List (List Char)) (piece : List Char) : List (List Char) :=
  if piece = [] ∨ piece = ['.'] then names
  else if piece = ['.', '.'] then
    match names.getLast? with
    | some last => if last = ['.', '.'] then names ++ [piece] else names.dropLast
    | none => if rooted then [] else [piece]
  else names ++ [piece]

/-- The normal spelling of a text: backslashes, no empty names, no `.`, and `..` resolved. -/
def normalize (cs : List Char) : List Char :=
  let (drive, rest) := splitDrive (backslashed cs)
  let (start, rest) := match rest with
    | '\\' :: _ => (drive ++ ['\\'], rest.dropWhile (· == '\\'))
    | _ => (drive, rest)
  let names := (splitAt '\\' rest).foldl (walk (start.getLast? == some '\\')) []
  if start = [] ∧ names = [] then ['.'] else start ++ ['\\'].intercalate names

/-- The texts are equal up to letter case. -/
def sameText (a b : List Char) : Bool := lower (String.ofList a) == lower (String.ofList b)

/-- A drive and what follows it, while parts are joined. -/
structure Joined where
  drive : List Char
  rest : List Char

/-- Joins one more part: a rooted part keeps the drive unless it has its own, a part on another
drive replaces everything, and any other part is appended. -/
def Joined.add (j : Joined) (part : List Char) : Joined :=
  let (drive, rest) := splitDrive part
  if rest.head?.any isSeparator then
    ⟨if drive ≠ [] ∨ j.drive = [] then drive else j.drive, rest⟩
  else if drive ≠ [] ∧ !sameText drive j.drive then ⟨drive, rest⟩
  else
    let front := if j.rest.getLast?.any (!isSeparator ·) then j.rest ++ ['\\'] else j.rest
    ⟨if drive ≠ [] then drive else j.drive, front ++ rest⟩

/-- The joined text. A share's drive is kept apart from a rest that is not rooted. -/
def Joined.text (j : Joined) : List Char :=
  if j.rest.head?.any (!isSeparator ·) && j.drive.getLast?.any (· != ':') then
    j.drive ++ '\\' :: j.rest
  else j.drive ++ j.rest

/-- The text of `parts` joined to `start`. -/
def joinText (start : List Char) (parts : List (List Char)) : List Char :=
  let (drive, rest) := splitDrive start
  (parts.foldl Joined.add ⟨drive, rest⟩).text

/-- The parts by which paths are compared: the drive, the root, which is a backslash or nothing, and
the names that follow. -/
structure Anatomy where
  drive : List Char
  root : List Char
  names : List (List Char)
deriving DecidableEq, Repr

/-- The drive of a share, `start` being the place after its first two separators. Two separators in
a row end the search without success. -/
def shareOf? (cs : List Char) : Option (List Char × List Char) :=
  match cs with
  | '\\' :: '\\' :: c :: rest =>
    if c = '\\' then none
    else match (c :: rest).findIdx? (· == '\\') with
      | none => none
      | some i =>
        let after := (c :: rest).drop (i + 1)
        match after.findIdx? (· == '\\') with
        | some 0 => none
        | some j => some (cs.take (2 + i + 1 + j), after.drop (j + 1))
        | none => some (cs, [])
  | _ => none

/-- The drive, root and rest of a text with backslashes only, by the rules for comparing. -/
def splitRoot (cs : List Char) : List Char × List Char × List Char :=
  let (start, cs) := match cs with
    | '\\' :: '\\' :: '?' :: '\\' :: rest =>
      match Text.dropPrefix? "UNC\\".toList rest with
      | some share => ("\\\\?\\UNC".toList, '\\' :: '\\' :: share)
      | none => ("\\\\?\\".toList, rest)
    | _ => ([], cs)
  match shareOf? cs with
  | some (share, rest) =>
    (if start = [] then share else start ++ share.drop 1, ['\\'], rest)
  | none =>
    let (drive, cs) := match cs with
      | a :: ':' :: rest => if a.isAlpha then ([a, ':'], rest) else ([], cs)
      | _ => ([], cs)
    match cs with
    | '\\' :: _ => (start ++ drive, ['\\'], cs.dropWhile (· == '\\'))
    | _ => (start ++ drive, [], cs)

/-- The parts of a text by which paths are compared. -/
def anatomyOf (cs : List Char) : Anatomy :=
  let (drive, root, rest) := splitRoot (backslashed cs)
  ⟨drive, root, (splitAt '\\' rest).filter fun n => n ≠ [] ∧ n ≠ ['.']⟩

/-- The components in order: a rooted text has its drive and root as two of them, any other its
drive, if it has one, as the first. -/
def Anatomy.components (a : Anatomy) : List (List Char) :=
  if a.root ≠ [] then a.drive :: a.root :: a.names
  else if a.drive ≠ [] then a.drive :: a.names
  else a.names

/-- A normalized absolute path. -/
structure Path where
  chars : List Char
deriving DecidableEq, Repr

namespace Path

/-- The text of the path. -/
def text (p : Path) : String := String.ofList p.chars

instance : ToString Path where
  toString := text

/-- The path that an absolute text stands for. -/
def ofChars? (cs : List Char) : Option Path :=
  if isAbsolute cs then some ⟨normalize cs⟩ else none

/-- The text by which paths are compared. -/
def key (p : Path) : String := lower p.text

/-- The directory part and the last name of a text. -/
def splitLast (cs : List Char) : List Char × List Char :=
  let (drive, rest) := splitDrive cs
  let (head, tail) := Text.cutAfterLast isSeparator rest
  let bare := (head.reverse.dropWhile isSeparator).reverse
  (drive ++ (if bare = [] then head else bare), tail)

/-- The directory that holds the path. -/
def parent (p : Path) : Path := ⟨normalize (splitLast p.chars).1⟩

/-- The last name. -/
def name (p : Path) : String := String.ofList (splitLast p.chars).2

/-- The text before the extension, and the extension with its dot. -/
def splitSuffix (p : Path) : List Char × List Char :=
  let (head, last) := Text.cutAfterLast isSeparator p.chars
  let (stem, ext) := splitExtension last
  (head ++ stem, ext)

/-- The extension of the last name, with its dot. -/
def extension (p : Path) : String := String.ofList p.splitSuffix.2

/-- The path with another extension; the dot of `suffix` may be left out. -/
def withSuffix (p : Path) (suffix : String) : Path :=
  let suffix := suffix.toList
  let suffix := if suffix.head? = some '.' then suffix else '.' :: suffix
  ⟨normalize (p.splitSuffix.1 ++ suffix)⟩

/-- The components that lead from `base` to `p`, if `p` is at or below `base`. -/
def relativeTo? (p base : Path) : Option (List String) :=
  let own := (anatomyOf p.chars).components
  let wanted := (anatomyOf base.chars).components
  if (own.take wanted.length).map (fun n => lower (String.ofList n)) =
      wanted.map (fun n => lower (String.ofList n)) then
    some ((own.drop wanted.length).map String.ofList)
  else none

end Path

end BuildLens.Windows
