import BuildLens.Path.Host

/-!
# URIs

Of a URI only the scheme and the path matter. Control characters and spaces in front are dropped,
and tabs and line breaks are dropped anywhere. The path ends at the first `#`, or at the first `?`
before that.

Main definitions:

- `Uri`, `Uri.ofText?`.
-/

namespace BuildLens

open Text (cutAt)

/-- The parts of a URI that matter: the scheme in lower case, if there is one, and the path, still
encoded. -/
structure Uri where
  scheme : Option String
  path : List Char
deriving DecidableEq, Repr

namespace Uri

/-- Characters that a scheme may hold. -/
def isSchemeChar (c : Char) : Bool := c.isAlphanum || c == '+' || c == '-' || c == '.'

/-- The scheme in lower case and the text after its colon. A scheme begins with a letter. -/
def splitScheme (cs : List Char) : Option String × List Char :=
  match cutAt ':' cs with
  | (scheme, some rest) =>
    if scheme.head?.any Char.isAlpha && scheme.all isSchemeChar then
      (some (String.ofList (scheme.map Char.toLower)), rest)
    else (none, cs)
  | (_, none) => (none, cs)

/-- Whether the character ends an authority. -/
def endsAuthority (c : Char) : Bool := c == '/' || c == '?' || c == '#'

/-- The path of the text after the scheme, or nothing if its authority cannot be one. -/
def pathOf? (cs : List Char) : Option (List Char) :=
  let rest? := match cs with
    | '/' :: '/' :: rest =>
      if Host.isValidAuthority (rest.takeWhile (!endsAuthority ·)) then
        some (rest.dropWhile (!endsAuthority ·))
      else none
    | _ => some cs
  rest?.map fun rest => (cutAt '?' (cutAt '#' rest).1).1

/-- The scheme and path of a URI, or nothing if its authority cannot be one. -/
def ofText? (s : String) : Option Uri :=
  let cs := s.toList.dropWhile fun c => c.toNat ≤ 0x20
  let cs := cs.filter fun c => c != '\t' && c != '\r' && c != '\n'
  let (scheme, rest) := splitScheme cs
  (pathOf? rest).map fun path => ⟨scheme, path⟩

end Uri

end BuildLens
