import BuildLens.Path.Percent
import BuildLens.Path.Platform
import BuildLens.Path.Posix
import BuildLens.Path.Uri
import BuildLens.Path.Windows
import BuildLens.Text.Quoted

/-!
# File paths

A file path is absolute and normalized, by the rules of POSIX systems or by those of Windows. Paths
arrive as plain texts, as texts printed by tools with forward slashes, or as URIs. The names of a
POSIX system are bytes, so that there may be halves of surrogate pairs in the text of its paths;
such a path is one over `Text.Rune`, and it has no URI.

Main definitions:

- `PathError`: why a text is not taken as a path.
- `FilePath`: a path of either kind, with its navigation and its order.
- `FilePath.ofText`, `FilePath.ofUnixText`, `FilePath.ofUri`: reading.
- `FilePath.text`, `FilePath.unixText`, `FilePath.toUri`: writing.
-/

namespace BuildLens

/-- Why a path cannot be built or moved: a text is not absolute, a URI has another scheme than
`file` or an authority that cannot be one, a path does not lie below the other one, or it has no
URI, be it for its drive or because UTF-8 has no bytes for it. -/
inductive PathError where
  | notAbsolute (text : String)
  | unsupportedScheme (uri : String)
  | malformedUri
  | notBelow
  | noUri (text : String)
  | unencodable
deriving DecidableEq, Repr

/-- The text shown for the error, where it has a text of its own. -/
def PathError.message : PathError → String
  | .notAbsolute text => s!"FilePath must be absolute: {Text.quoted text}"
  | .unsupportedScheme uri => s!"Unsupported URI scheme: {Text.quoted uri}"
  | .malformedUri => "Invalid URI authority"
  | .notBelow => "The path is not below the other path"
  | .noUri text => s!"Bad path: {text}"
  | .unencodable => "The path holds half of a surrogate pair"

namespace Windows

/-- The text that a text with forward slashes means: `C:\a` for `/c/a`. A line feed at the end does
not hide a lone drive. -/
def ofUnixChars (cs : List Char) : List Char :=
  let cs := match cs with
    | '/' :: d :: rest =>
      if d.isAlpha && (rest == [] || rest == ['\n'] || rest.head? == some '/') then
        d.toUpper :: ':' :: (if rest.isEmpty then ['/'] else rest)
      else cs
    | _ => cs
  backslashed cs

/-- The form with forward slashes of a text: `/c/a` for `C:\a`. -/
def toUnixChars (cs : List Char) : List Char :=
  let cs := match cs with
    | d :: ':' :: rest =>
      if d.isAlpha then
        '/' :: d.toLower :: '/' ::
          (if rest.head?.any isSeparator then rest.drop 1 else rest)
      else cs
    | _ => cs
  cs.map fun c => if c = '\\' then '/' else c

/-- The path of the URI of a text. A second colon, or a drive of several letters, has none. -/
def toUriPath (cs : List Char) : Except PathError (List Char) :=
  let clean : Except PathError (List Char) :=
    match Text.dropPrefix? "\\\\?\\".toList cs with
    | none => .ok cs
    | some rest =>
      if (rest.take 4).flatMap Text.upperChar == "UNC\\".toList then .ok ('\\' :: rest.drop 4)
      else if rest[1]? = some ':' then .ok rest
      else .error (.noUri (String.ofList rest))
  clean.bind fun cs =>
    match Text.splitAt ':' cs with
    | [drive, rest] =>
      match drive with
      | [] | [_] =>
        .ok ("///".toList ++ Percent.encode (drive.flatMap Text.upperChar) ++ [':'] ++
          ((Text.splitAt '\\' rest).filter (· ≠ [])).flatMap fun n => '/' :: Percent.encode n)
      | _ => .error (.noUri (String.ofList cs))
    | [_] =>
      let cs := match cs with
        | '\\' :: '\\' :: _ => '\\' :: '\\' :: cs
        | _ => cs
      .ok (Percent.encode (cs.map fun c => if c = '\\' then '/' else c))
    | _ => .error (.noUri (String.ofList cs))

end Windows

/-- An absolute normalized path, of a POSIX system or of Windows. -/
inductive FilePath (α : Type := Char) [Text.Alphabet α] where
  | posix (path : Posix.Path α)
  | windows (path : Windows.Path)
deriving DecidableEq, Repr

instance : Coe Posix.Path FilePath := ⟨.posix⟩

namespace FilePath

/-- The text of the path. -/
def text : FilePath → String
  | .posix p => p.text
  | .windows p => p.text

instance : ToString FilePath where
  toString := text

/-- The text by which paths are compared: on Windows letter case does not count. -/
def key : FilePath → String
  | .posix p => p.text
  | .windows p => p.key

/-- Whether the paths name the same place. -/
def same (p q : FilePath) : Bool := p.key == q.key

/-- Whether `p` comes before `q`. -/
def before (p q : FilePath) : Bool := decide (p.key < q.key)

/-- Whether a text is absolute on the platform. -/
def isAbsoluteText (platform : Platform) (s : String) : Bool :=
  match platform with
  | .windows => Windows.isAbsolute s.toList
  | _ => (Posix.Path.rootOf? s.toList).isSome

/-- The path that an absolute text stands for. -/
def ofText? (platform : Platform) (s : String) : Option FilePath :=
  match platform with
  | .windows => (Windows.Path.ofChars? s.toList).map .windows
  | _ => (Posix.Path.ofText? s).map .posix

/-- The path that a text stands for; the text has to be absolute. -/
def ofText (platform : Platform) (s : String) : Except PathError FilePath :=
  match ofText? platform s with
  | some p => .ok p
  | none => .error (.notAbsolute s)

/-- The path that a text printed by a tool with forward slashes stands for. -/
def ofUnixText (platform : Platform) (s : String) : Except PathError FilePath :=
  match platform with
  | .windows => ofText .windows (String.ofList (Windows.ofUnixChars s.toList))
  | platform => ofText platform s

/-- The path of a `file` URI, or the path that a text without a scheme stands for. A scheme of one
letter is taken for a drive. -/
def ofUri (platform : Platform) (s : String) : Except PathError FilePath :=
  match Uri.ofText? s with
  | none => .error .malformedUri
  | some uri =>
    if uri.scheme = some "file" then
      let path := Percent.decode uri.path
      let path := match platform, path with
        | .windows, '/' :: d :: ':' :: rest => if d.isAlpha then d :: ':' :: rest else path
        | _, _ => path
      ofText platform (String.ofList path)
    else if (uri.scheme.map String.length).any (1 < ·) then .error (.unsupportedScheme s)
    else ofText platform s

/-- The text of the path with forward slashes. -/
def unixText : FilePath → String
  | .posix p => p.text
  | .windows p => String.ofList (Windows.toUnixChars p.chars)

/-- The URI of the path. -/
def toUri {α : Type} [Text.Alphabet α] : FilePath α → Except PathError String
  | .posix p =>
    match Text.charsOf? p.chars with
    | some cs => .ok ("file://" ++ String.ofList (Percent.encode cs))
    | none => .error .unencodable
  | .windows p =>
    (Windows.toUriPath p.chars).map fun path => "file://" ++ String.ofList path

/-- The path reached by the parts one after the other. On Windows a part on another drive may lead
to a place that is not absolute. -/
def join (p : FilePath) (parts : List String) : Except PathError FilePath :=
  match p with
  | .posix p => .ok (.posix (p.join parts))
  | .windows p =>
    let joined := Windows.joinText p.chars (parts.map String.toList)
    match Windows.Path.ofChars? joined with
    | some q => .ok (.windows q)
    | none => .error (.notAbsolute (String.ofList joined))

/-- The directory that holds the path; a root holds itself. -/
def parent : FilePath → FilePath
  | .posix p => .posix p.parent
  | .windows p => .windows p.parent

/-- The last name, or the empty text for a root. -/
def name : FilePath → String
  | .posix p => p.name
  | .windows p => p.name

/-- The last name as it is shown, or the empty text for a root. -/
def shownName {α : Type} [Text.Alphabet α] : FilePath α → String
  | .posix p => Text.rendered p.lastChars
  | .windows p => p.name

/-- The extension of the last name, with its dot. -/
def extension : FilePath → String
  | .posix p => p.extension
  | .windows p => p.extension

/-- The path with another extension; the dot of `suffix` may be left out. -/
def withSuffix (p : FilePath) (suffix : String) : FilePath :=
  match p with
  | .posix p => .posix (p.withSuffix suffix)
  | .windows p => .windows (p.withSuffix suffix)

/-- The components that lead from `base` to `p`, if `p` is at or below `base`. -/
def relativeTo? : FilePath → FilePath → Option (List String)
  | .posix p, .posix base => (p.relativeTo? base).map (·.map Posix.Name.text)
  | .windows p, .windows base => p.relativeTo? base
  | _, _ => none

/-- Whether `p` is `base` or lies below it. -/
def isUnder (p base : FilePath) : Bool := (p.relativeTo? base).isSome

/-- The path that lies below `target` as `p` lies below `base`. -/
def rebase (p base target : FilePath) : Except PathError FilePath :=
  match p.relativeTo? base with
  | some parts => target.join parts
  | none => .error .notBelow

/-- The path as it is shown for inspection. -/
def shown {α : Type} [Text.Alphabet α] (p : FilePath α) : String :=
  let quoted := match p with
    | .posix p => Text.quotedText p.chars
    | .windows p => Text.quotedText p.chars
  s!"FilePath({quoted})"

end FilePath

end BuildLens
