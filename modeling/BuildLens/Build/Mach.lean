import BuildLens.Inquiry.Basic
import BuildLens.Json.Reader
import BuildLens.Settings.Folder

/-!
# The build tool

Main definitions:

- `Mach`: the build tool of a source tree.
- `Mach.find`: the inquiry for it.
- `Mach.ask`, `Mach.environment`, `Mach.compileFlags`: what it is asked.
-/

namespace BuildLens

/-- What an inquiry may know of its surroundings without asking: the kind of system, the environment
of this process, and the limits to which it keeps when it reads JSON. -/
structure Surroundings where
  platform : Platform := .linux
  environment : Table String := ∅
  limits : Json.Limits := {}

/-- The diagnostics that the build tool prints when a tree has not been built. -/
def notBuiltTexts : List String := ["has not been built yet", "has not been configured yet"]

/-- Whether the output says that the tree has not been built. -/
def ProcessResult.saysNotBuilt (r : ProcessResult) : Bool :=
  notBuiltTexts.any fun s => Text.holds s.toList (r.textOn .stdout).toList

/-- The build tool of a source tree, with its command in the tree and the settings of the folder. -/
structure Mach where
  root : FilePath
  command : List Argument
  settings : FolderSettings
deriving DecidableEq, Repr

namespace Mach

/-- The name of the build tool in the root of a tree. -/
def fileName : String := "mach"

/-- The build tool of a tree, if there is one. -/
def find (root : FilePath) (settings : FolderSettings) : Inquiry (Option Mach) := do
  let path ← .ofPath (root.join [fileName])
  if ← .request (.isFile path) then return some { root, command := [.path path], settings }
  else return none

/-- The command to run: the one that is set, or the one in the tree. -/
def invocation (m : Mach) (platform : Platform) : Except PathError (List Argument) :=
  match m.settings.machPath with
  | some command => if command.isEmpty then .ok m.command else Argument.parse platform command
  | none => .ok m.command

/-- Runs the build tool in the root of its tree. What it prints about a tree that has not been built
counts before its exit code. -/
def ask (m : Mach) (s : Surroundings) (args : List Argument) : Inquiry ProcessResult := do
  let command ← .ofPath (m.invocation s.platform)
  let environment := m.settings.environmentOver s.environment
  match ← .request (.run (command ++ args) (some m.root) (some environment)) with
  | .error (.process e) =>
    if e.result.saysNotBuilt then .failed (.notBuilt (.reported m.root)) else .failed (.process e)
  | .error e => .failed e
  | .ok r => if r.saysNotBuilt then .failed (.notBuilt (.reported m.root)) else .answer r

/-- The environment that an output tells: an object of JSON, with any text before it. -/
def environmentOf (limits : Json.Limits) (output : String) : Except Failure MachEnvironment :=
  match output.toList.dropWhile (· ≠ '{') with
  | [] => .error (.environment .noObject)
  | document =>
    match Json.parse limits (String.ofList document) with
    | .error .malformed => .error (.environment (.unreadable []))
    | .error (.beyond limit) => .error (.beyond limit)
    | .ok j => (MachEnvironment.ofJson j).mapError fun faults => .environment (.unreadable faults)

/-- Asks for the environment of the tree. -/
def environment (m : Mach) (s : Surroundings) : Inquiry MachEnvironment := do
  let r ← m.ask s ["environment", "--format", "json"]
  .ofExcept id (environmentOf s.limits (r.textOn .stdout))

/-- Asks for the flags of a file. -/
def compileFlags (m : Mach) (s : Surroundings) (source : FilePath) : Inquiry String := do
  let r ← m.ask s ["compileflags", .path source]
  return Text.strip (r.textOn .stdout)

/-- The state of the build tool for inspection. -/
def toJson (m : Mach) : Json := .object [
  ("command", .ofTexts (m.command.map Argument.render)),
  ("override", .ofText? m.settings.machPath),
  ("environment", .ofTextTable m.settings.machEnvironment)]

end Mach

end BuildLens
