import BuildLens.Workspace.Context
import BuildLens.Workspace.Registration

/-!
# Workspaces

A workspace publishes the folders of the editor, each with its newest look. It counts the build
trees among them, and keeps a provider registered with the editor while there are any.

Every look at a folder begins a model, and models are numbered in the order in which they are begun.
A model is published by its number under the root of its folder.

Main definitions:

- `Workspace`: models, published folders, and the provider.
- `Workspace.takeUp`, `Workspace.publish`, `Workspace.unpublish`: folders come and go.
- `Workspace.sync`, `Workspace.registered`: the provider follows the count of build trees.
- `Workspace.innermost?`: the folder to which a file belongs.
-/

namespace BuildLens

/-- The number of a model. -/
abbrev ModelId := Nat

/-- The folders of the editor and the provider that answers for them. `models` are all that were
begun, by their numbers; those in force are published by the keys of their roots, and `latest` is
the newest rebuild in flight of each root. Providers are numbered in the order in which they were
registered. -/
structure Workspace where
  context : Context := {}
  models : List Folder := []
  published : Table ModelId := ∅
  buildCount : Int := 0
  latest : Table ModelId := ∅
  registrations : List Registration := []
  provider : Option Nat := none
  registering : Bool := false

namespace Workspace

/-- The kind of system. -/
def platform (w : Workspace) : Platform := w.context.surroundings.platform

/-! ## Models -/

/-- The model with a number. -/
def model? (w : Workspace) (i : ModelId) : Option Folder := w.models[i]?

/-- What is known of the folder of a model. -/
def phaseOf (w : Workspace) (i : ModelId) : FolderPhase :=
  ((w.model? i).map Folder.phase).getD .unprobed

/-- Changes a model. -/
def modifyModel (w : Workspace) (i : ModelId) (f : Folder → Folder) : Workspace :=
  { w with models := w.models.modify i f }

/-- Begins a model of a folder under the settings in force. -/
def takeUp (w : Workspace) (source : EditorFolder) (root : FilePath) : ModelId × Workspace :=
  let f := { Folder.take w.platform w.context.settings source root (w.models.length + 1) with
    phase := .probing }
  (w.models.length, { w with models := w.models ++ [f] })

/-- The key under which a model is published. -/
def keyOf (w : Workspace) (i : ModelId) : String := ((w.model? i).map (·.root.key)).getD ""

/-- Whether the model is that of a build tree. -/
def isBuildTree (w : Workspace) (i : ModelId) : Bool := (w.model? i).any Folder.isBuildTree

/-- Lets go of what a model keeps in memory. -/
def disposeModel (w : Workspace) (i : ModelId) : Workspace := w.modifyModel i Folder.dispose

/-! ## Published folders -/

/-- Publishes a model under its root. A root that is known keeps its place. -/
def publish (w : Workspace) (i : ModelId) : Workspace :=
  { w with published := w.published.insert (w.keyOf i) i }

/-- Whether the model is the one published under its root. -/
def isPublished (w : Workspace) (i : ModelId) : Bool := w.published.find? (w.keyOf i) == some i

/-- The numbers of the models in force, in order. -/
def publishedIds (w : Workspace) : List ModelId := w.published.entries.map Prod.snd

/-- The models in force, in order. -/
def folders (w : Workspace) : List Folder := w.publishedIds.filterMap w.model?

/-- The build trees among the folders. -/
def buildFolders (w : Workspace) : List Folder := w.folders.filter Folder.isBuildTree

/-- Whether any folder can tell configurations. -/
def canProvide (w : Workspace) : Bool := w.folders.any Folder.isBuildTree

/-- Takes a root from the published folders, with any rebuild in flight, and tells whether a build
tree went with it. -/
def unpublish (w : Workspace) (root : FilePath) : Bool × Workspace :=
  let w := { w with latest := w.latest.erase root.key }
  match w.published.find? root.key with
  | none => (false, w)
  | some i =>
    (w.isBuildTree i, { w with published := w.published.erase root.key }.disposeModel i)

/-- The better of a folder and the best one so far for a path: one that contains the path and lies
in the best one so far. -/
def closer (w : Workspace) (path : FilePath) (best : Option ModelId) (i : ModelId) :
    Option ModelId :=
  match w.model? i, best.bind w.model? with
  | some f, some b => if f.contains path && f.root.isUnder b.root then some i else best
  | some f, none => if f.contains path then some i else best
  | none, _ => best

/-- The innermost published folder that contains a path. -/
def innermost? (w : Workspace) (path : FilePath) : Option ModelId :=
  w.publishedIds.foldl (w.closer path) none

/-- The build tree that answers for a path. -/
def answering? (w : Workspace) (path : FilePath) : Option ModelId :=
  (w.innermost? path).filter w.isBuildTree

/-! ## The provider -/

/-- Changes the registration of a provider. -/
def modifyRegistration (w : Workspace) (n : Nat) (f : Registration → Registration) : Workspace :=
  { w with registrations := w.registrations.modify n f }

/-- Tells the editor of a change, if a provider is in force. -/
def notify (w : Workspace) (notice : ChangeNotice) : Workspace :=
  match w.provider with
  | some n => w.modifyRegistration n (·.notify notice)
  | none => w

/-- Tells the editor that configurations and directories to browse have changed. -/
def notifyChange (w : Workspace) : Workspace :=
  (w.notify .configurationChanged).notify .browseConfigurationChanged

/-- Disposes of the provider in force. -/
def disposeProvider (w : Workspace) : Workspace :=
  match w.provider with
  | some n => { w with provider := none }.modifyRegistration n Registration.dispose
  | none => w

/-- Disposes of the provider if there are no build trees. -/
def retire (w : Workspace) : Workspace := if w.buildCount = 0 then w.disposeProvider else w

/-- How the provider follows the count of build trees: the editor has to be asked for its interface,
or nothing was registered. -/
inductive Sync where
  | asking
  | settled
deriving DecidableEq, Repr

/-- Makes the provider follow the count of build trees: the editor is asked for its interface if one
is wanted and nobody asks already, and the provider is disposed of if none is wanted. -/
def sync (w : Workspace) : Sync × Workspace :=
  if 0 < w.buildCount ∧ w.provider = none then
    if w.registering then (.settled, w) else (.asking, { w with registering := true })
  else (.settled, w.retire)

/-- Goes on when the editor has answered. A provider is registered on the interface, if there is
one, and disposed of at once if it is no longer wanted. The answer tells whether a new provider is
in force. -/
def registered (w : Workspace) (hasApi : Bool) : Bool × Workspace :=
  let w := { w with registering := false }
  if hasApi then
    let n := w.registrations.length
    let registrations := w.registrations ++ [Registration.fresh]
    let w := { w with registrations, provider := some n }.retire
    (w.provider == some n, w)
  else (false, w)

/-- Lets go of all folders and of the provider. -/
def dispose (w : Workspace) : Workspace :=
  { w.publishedIds.foldl disposeModel w with published := ∅, latest := ∅, buildCount := 0
    }.disposeProvider

/-! ## What the provider answers -/

/-- The build tree that answers for a URI. -/
def answeringUri? (w : Workspace) (uri : String) : Option ModelId :=
  (FilePath.ofUri w.platform uri).toOption.bind w.answering?

/-- The directories to browse for all build trees, if there are any. -/
def browse (w : Workspace) : Option BrowseConfiguration :=
  match w.buildFolders with
  | [] => none
  | fs => some ⟨(fs.foldl (fun s f => s.insertMany f.searchPaths.toList) (∅ : PathSet)).texts⟩

/-- The directories to browse for the build tree that answers for a URI. -/
def browseFolder (w : Workspace) (uri : String) : Option BrowseConfiguration :=
  ((w.answeringUri? uri).bind w.model?).map fun f => ⟨f.searchPaths.texts⟩

/-- The state of the workspace for inspection. -/
def toJson (w : Workspace) : Json := .object [
  ("build_count", .ofInt w.buildCount),
  ("provider", .ofText? (w.provider.map fun _ => providerName)),
  ("folders", .array (w.folders.map Folder.toJson))]

end Workspace

end BuildLens
