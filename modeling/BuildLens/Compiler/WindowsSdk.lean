import BuildLens.Path.FilePath

/-!
# The version of the Windows SDK

The headers of the Windows SDK stand in a directory that ends in `Windows Kits`, `10`, `include`
and the version, which begins with `10.`. A search path that leads there tells the version.

Main definitions:

- `WindowsSdk.versionAt?`: the version, if the text begins with a separator and these names.
- `WindowsSdk.version?`: the version told by a list of paths.
-/

namespace BuildLens.WindowsSdk

open Windows (isSeparator)

/-- The text after letters that agree with the given ones up to case. -/
def dropLetters? : (letters text : List Char) → Option (List Char)
  | [], cs => some cs
  | _ :: _, [] => none
  | l :: ls, c :: cs => if Text.sameLetter l c then dropLetters? ls cs else none

/-- The text after a separator and a name that agrees with the given one up to case. -/
def dropName? (name text : List Char) : Option (List Char) :=
  match text with
  | c :: cs => if isSeparator c then dropLetters? name cs else none
  | [] => none

/-- Whether a name may end here: at a separator, or at the end or a last line feed. -/
def endsName : List Char → Bool
  | [] => true
  | ['\n'] => true
  | c :: _ => isSeparator c

/-- Whether the character may stand in a version. -/
def isVersionChar (c : Char) : Bool := c.isDigit || c == '.'

/-- The version, if the text begins with a separator and the names that lead to it. -/
def versionAt? (cs : List Char) : Option (List Char) := do
  let cs ← dropName? "windows kits".toList cs
  let cs ← dropName? "10".toList cs
  let cs ← dropName? "include".toList cs
  let rest ← dropName? "10.".toList cs
  let tail := rest.takeWhile isVersionChar
  if tail ≠ [] ∧ endsName (rest.dropWhile isVersionChar) then some ("10.".toList ++ tail) else none

/-- The version told by the first place in the text that tells one. -/
def versionIn? : List Char → Option (List Char)
  | [] => none
  | c :: cs => (versionAt? (c :: cs)).or (versionIn? cs)

/-- The version told by the first path that tells one. -/
def version? (paths : List FilePath) : Option String :=
  paths.findSome? fun p => (versionIn? p.text.toList).map String.ofList

end BuildLens.WindowsSdk
