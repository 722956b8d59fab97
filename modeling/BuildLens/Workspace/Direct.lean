import BuildLens.Workspace.Basic

/-!
# A workspace with one user

Where nothing else works on a workspace, an operation goes from its beginning to its end without a
break.

Main definitions:

- `Workspace.count`: the provider follows a new build tree.
- `Workspace.addWith`: a folder is published and looked at.
-/

namespace BuildLens.Workspace

/-- Counts a published model if it is that of a build tree. The editor either registers a provider
or is told of the change. -/
def count (w : Workspace) (i : ModelId) (hasApi : Bool) : Workspace :=
  if w.isBuildTree i then
    match { w with buildCount := w.buildCount + 1 }.sync with
    | (.asking, w) =>
      match w.registered hasApi with
      | (true, w) => w
      | (false, w) => w.notifyChange
    | (.settled, w) => w.notifyChange
  else w

/-- Takes in the outcome of the look at a model. The user is told of a failure that is new. -/
def conclude (w : Workspace) (i : ModelId) (outcome : Except Failure (Option Build)) : Workspace :=
  match w.model? i with
  | none => w
  | some f =>
    let context := { w.context with messages := f.report outcome w.context.messages }
    { w with context }.modifyModel i (·.conclude outcome)

/-- Publishes a folder and looks at it, every request being answered as it comes. A folder whose
root is known is not looked at again. -/
def addWith {m : Type → Type} [Monad m] (answerer : Answerer m) (hasApi : Bool)
    (assemble : SourceTree → Except Failure Compiler → Except Failure Compiler →
      Except Failure Build) (w : Workspace) (source : EditorFolder) (root : FilePath) :
    m (ModelId × Workspace) := do
  match w.published.find? root.key with
  | some i => return (i, w)
  | none =>
    let (i, w) := w.takeUp source root
    let w := w.publish i
    let outcome ← Build.discoverWith answerer w.context.surroundings root
      (w.context.folderSettings root) assemble
    return (i, (w.conclude i outcome).count i hasApi)

end BuildLens.Workspace
