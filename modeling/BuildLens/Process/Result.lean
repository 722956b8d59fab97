import BuildLens.Text.Line
import BuildLens.Text.Split

/-!
# Results of commands

A command leaves the pieces of its output in the order in which they arrived, each with the stream
on which it arrived, and an exit code.

Main definitions:

- `Stream`, `OutputChunk`, `ProcessResult`: what a command leaves.
- `ProcessResult.text`, `ProcessResult.textOn`, `ProcessResult.tail`: reading the output.
- `printableCommand`: a command as it is shown in messages.
- `dropOutput`, `ProcessResult.stripBanner`: removal of a first line.
-/

namespace BuildLens

/-- An output stream: that for results, or that for messages. -/
inductive Stream where
  | stdout
  | stderr
deriving DecidableEq, Repr

/-- The usual name of the stream. -/
def Stream.name : Stream → String
  | .stdout => "stdout"
  | .stderr => "stderr"

/-- A piece of output, with the stream on which it arrived. -/
structure OutputChunk where
  stream : Stream
  text : String
deriving DecidableEq, Repr

/-- The number of arguments of which a shown command consists at most. -/
def shownArguments : Nat := 10

/-- A command as it is shown in messages: the first arguments, and dots for the others. -/
def printableCommand (args : List String) : String :=
  " ".intercalate (args.take shownArguments ++ if shownArguments < args.length then ["..."] else [])

/-- What a command leaves. The pieces of its output are in the order of arrival. -/
structure ProcessResult where
  args : List String
  exitCode : Int := 0
  chunks : List OutputChunk := []
deriving DecidableEq, Repr

namespace ProcessResult

/-- The text of some pieces of output. -/
def joined (chunks : List OutputChunk) : String := String.join (chunks.map OutputChunk.text)

/-- The text of the whole output. -/
def text (r : ProcessResult) : String := joined r.chunks

/-- The text that arrived on one stream. -/
def textOn (r : ProcessResult) (s : Stream) : String :=
  joined (r.chunks.filter (·.stream = s))

/-- The lines of a text. -/
def linesOf (s : String) : List String := (Text.lines s.toList).map String.ofList

/-- The command as it is shown in messages. -/
def printable (r : ProcessResult) : String := printableCommand r.args

/-- The last `limit` characters of the output. All of it counts as the last none, and a limit below
zero says how many characters to leave out at the start. -/
def tail (r : ProcessResult) (limit : Int := 2000) : String :=
  let cs := r.text.toList
  String.ofList <| match limit with
    | .ofNat 0 => cs
    | .ofNat n => cs.drop (cs.length - n)
    | .negSucc n => cs.drop (n + 1)

end ProcessResult

/-- Drops characters of the standard output from the start; pieces that become empty go with
them. -/
def dropOutput : Nat → List OutputChunk → List OutputChunk
  | 0, chunks => chunks
  | _ + 1, [] => []
  | n + 1, c :: chunks =>
    match c.stream with
    | .stderr => c :: dropOutput (n + 1) chunks
    | .stdout =>
      if c.text.length ≤ n + 1 then dropOutput (n + 1 - c.text.length) chunks
      else ⟨.stdout, String.ofList (c.text.toList.drop (n + 1))⟩ :: chunks

/-- How the login shell of MozillaBuild begins its output. -/
def mozillaBuildBanner : String := "MozillaBuild Install Directory:"

/-- The number of characters up to the first line feed and with it, or of all of them. -/
def firstLineLength (cs : List Char) : Nat :=
  match cs.findIdx? (· == '\n') with
  | some n => n + 1
  | none => cs.length

/-- Removes the first line of the standard output if it begins with the banner. -/
def ProcessResult.stripBanner (r : ProcessResult) (banner : String := mozillaBuildBanner) :
    ProcessResult :=
  let out := (r.textOn .stdout).toList
  if banner.toList.isPrefixOf out then
    { r with chunks := dropOutput (firstLineLength out) r.chunks }
  else r

end BuildLens
