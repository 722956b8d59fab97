import BuildLens.Build.Basic
import BuildLens.Folder.Message
import BuildLens.Settings.Basic

/-!
# Folders

The editor reports folders by their URIs. Each is looked at once; then it is known to be a build
tree, or not to be one.

Main definitions:

- `EditorFolder`: a folder as the editor reports it.
- `FolderPhase`, `Folder`: a folder and what is known of it.
- `Folder.conclude`, `Folder.message?`: what the outcome of looking at a folder means.
- `Folder.configure`, `Folder.testCompile`: the inquiries about its files.
-/

namespace BuildLens

/-- A folder as the editor reports it: its URI, and the name that the editor shows. -/
structure EditorFolder where
  uri : String
  name : String := ""
deriving DecidableEq, Repr

namespace EditorFolder

/-- The folder at a path, named as given or by the last name of the path. -/
def ofPath {α : Type} [Text.Alphabet α] (p : FilePath α) (name : Option String := none) :
    Except PathError EditorFolder :=
  p.toUri.map fun uri => { uri, name := name.getD p.shownName }

/-- The path of the folder. -/
def path (platform : Platform) (f : EditorFolder) : Except PathError FilePath :=
  FilePath.ofUri platform f.uri

end EditorFolder

/-- What is known of a folder. It is no build tree if nothing was found there or looking at it
failed. -/
inductive FolderPhase where
  | unprobed
  | probing
  | recognized (build : Build)
  | notBuildTree (error : Option Failure)
deriving DecidableEq, Repr

/-- The name of the phase. -/
def FolderPhase.name : FolderPhase → String
  | .unprobed => "unprobed"
  | .probing => "probing"
  | .recognized _ => "recognized"
  | .notBuildTree _ => "not_a_build_tree"

/-- A folder as the editor reports it, the settings that held when it was taken up, and what one
look at it has told. Its generation is how many looks at folders were begun up to this one. -/
structure Folder where
  source : EditorFolder
  root : FilePath
  settings : FolderSettings
  generation : Nat := 0
  phase : FolderPhase := .unprobed
  fragments : FragmentCache := {}
deriving DecidableEq, Repr

namespace Folder

/-- A folder that is taken up under the given settings. -/
def take (platform : Platform) (settings : Settings) (source : EditorFolder) (root : FilePath)
    (generation : Nat := 0) : Folder where
  source := source
  root := root
  settings := settings.forFolder platform root
  generation := generation

/-- The name of the folder. -/
def name (f : Folder) : String := if f.source.name.isEmpty then f.root.name else f.source.name

/-- The build, if the folder is a build tree. -/
def build? (f : Folder) : Option Build :=
  match f.phase with
  | .recognized build => some build
  | _ => none

/-- Whether the folder is a build tree. -/
def isBuildTree (f : Folder) : Bool := f.build?.isSome

/-- Why looking at the folder failed, if it did. -/
def error? (f : Folder) : Option Failure :=
  match f.phase with
  | .notBuildTree error => error
  | _ => none

/-- Whether a path lies in the folder. -/
def contains (f : Folder) (p : FilePath) : Bool := p.isUnder f.root

/-- The phase that a look at a folder ends in. -/
def phaseOf : Except Failure (Option Build) → FolderPhase
  | .ok (some build) => .recognized build
  | .ok none => .notBuildTree none
  | .error e => .notBuildTree (some e)

/-- The folder after a look at it. -/
def conclude (f : Folder) (outcome : Except Failure (Option Build)) : Folder :=
  { f with phase := phaseOf outcome }

/-- What the user is told of a failure. -/
def failureMessage (f : Folder) (e : Failure) : MessageKey × Message :=
  match e with
  | .notBuilt _ =>
    (.notBuilt f.root.text,
      { text := s!"The folder '{f.name}' has not been built yet. " ++
          "Run './mach build' and reload to enable code intelligence for it."
        isError := false })
  | e =>
    (.failed f.root.text e.kind,
      { text := s!"Unable to configure the folder '{f.name}': {e.message}" })

/-- What the user is told of the outcome of looking at the folder. -/
def message? (f : Folder) : Except Failure (Option Build) → Option (MessageKey × Message)
  | .ok _ => none
  | .error e => some (f.failureMessage e)

/-- The folder without fragments in memory. -/
def dispose (f : Folder) : Folder := { f with fragments := f.fragments.clear }

/-- The directories to browse. -/
def searchPaths (f : Folder) : PathSet := (f.build?.map Build.searchPaths).getD ∅

/-- The configuration of a file. -/
def configure (f : Folder) (s : Surroundings) (classifier : Classifier) (source : FilePath) :
    Inquiry (Option SourceConfiguration) :=
  match f.build? with
  | some build => build.configure s classifier source
  | none => return none

/-- The report of a test compilation of a file. -/
def testCompile (f : Folder) (s : Surroundings) (classifier : Classifier) (source : FilePath) :
    Inquiry (Option CompileReport) :=
  match f.build? with
  | some build => some <$> build.testCompile s classifier source
  | none => return none

/-- The messages after the user is told of the outcome of looking at the folder. -/
def report (f : Folder) (outcome : Except Failure (Option Build)) (ms : Messages) : Messages :=
  match f.message? outcome with
  | some (key, m) => ms.tell key m
  | none => ms

/-- Looks at a folder that nothing is known of, every request being answered as it comes. -/
def probeWith {m : Type → Type} [Monad m] (answerer : Answerer m) (s : Surroundings) (f : Folder)
    (ms : Messages)
    (assemble : SourceTree → Except Failure Compiler → Except Failure Compiler →
      Except Failure Build := Build.ofCompilers) : m (Folder × Messages) := do
  match f.phase with
  | .unprobed =>
    let outcome ← Build.discoverWith answerer s f.root f.settings assemble
    return (f.conclude outcome, f.report outcome ms)
  | _ => return (f, ms)

/-- The state of the folder for inspection. -/
def toJson (f : Folder) : Json := .object [
  ("name", .string f.name),
  ("root", .string f.root.text),
  ("state", .string f.phase.name),
  ("generation", .ofNat f.generation),
  ("error", .ofText? (f.error?.map Failure.message)),
  ("settings", f.settings.toJson),
  ("build", (f.build?.map Build.toJson).getD .null)]

end Folder

end BuildLens
