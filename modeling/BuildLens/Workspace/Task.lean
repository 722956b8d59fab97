import BuildLens.Workspace.Basic

/-!
# Tasks of a workspace

Operations on a workspace run as tasks that take turns: a task goes on until it needs an answer from
outside or waits for other tasks. What a task will do next is kept as data.

Main definitions:

- `Operation`: what a workspace can be asked to do.
- `Activity`: what a task is doing.
- `Outcome`: what a task ends with.
-/

namespace BuildLens

/-- The number of a task. -/
abbrev TaskId := Nat

/-- What a workspace can be asked to do. A rebuild concerns all folders if none are named. An editor
may be told of a change through a provider that is no longer in force, and may dispose of a provider
from its side. -/
inductive Operation where
  | add (folder : EditorFolder)
  | addMany (folders : List EditorFolder)
  | remove (root : FilePath)
  | change (added removed : List EditorFolder)
  | rebuild (roots : Option (List FilePath))
  | updateSettings (settings : Settings)
  | configure (source : FilePath)
  | testCompile (source : FilePath)
  | provide (uris : List String)
  | notify (notice : ChangeNotice)
  | notifyThrough (provider : Nat)
  | disposeOf (provider : Nat)
  | dispose

/-- Why a folder is being looked at: it is new, or the look is to replace an older one. -/
inductive Purpose where
  | add
  | rebuild
deriving DecidableEq, Repr

/-- How a task goes on when the editor has answered: a folder was added, one was taken away with
others still to be taken away and added, or one was looked at again. -/
inductive AfterRegistration where
  | added (model : ModelId)
  | removed (rest : List (Except PathError FilePath)) (added : List EditorFolder)
  | rebuilt

/-- How a task goes on when other tasks have ended: with the compilers of a tree, the folders that
were added, telling the editor that folders were looked at again, nothing, or the configurations of
files. -/
inductive AfterGathering where
  | compilers (purpose : Purpose) (model : ModelId) (tree : SourceTree)
  | folders
  | rebuilt
  | changed
  | items

/-- What a task ends with. A folder comes with what was known of it then. -/
inductive Outcome where
  | nothing
  | folder (model : ModelId) (phase : FolderPhase)
  | folders (models : List (ModelId × FolderPhase))
  | compiler (c : Compiler)
  | item (i : Option ProvidedItem)
  | items (is : List ProvidedItem)
  | configuration (c : Option SourceConfiguration)
  | report (r : Option CompileReport)

/-- What a task is doing: it is about to begin something, it inquires into a folder, a compiler or a
file, it tells the user of a failure, it asks the editor for its interface, it waits for other
tasks, or it has ended. -/
inductive Activity where
  | adding (folder : EditorFolder)
  | rebuilding (old : ModelId)
  | asking (tree : SourceTree) (l : Language)
  | providing (uri : String)
  | surveying (purpose : Purpose) (model : ModelId) (i : Inquiry (Option SourceTree))
  | discovering (i : Inquiry Compiler)
  | telling (purpose : Purpose) (model : ModelId)
  | registering (after : AfterRegistration)
  /-- It waits for other tasks; the first failure among them is noted. -/
  | gathering (children : List TaskId) (failure : Option Failure) (after : AfterGathering)
  | resolving (uri : String) (path : FilePath) (model : ModelId)
    (i : Inquiry (Option SourceConfiguration))
  | configuring (model : ModelId) (i : Inquiry (Option SourceConfiguration))
  | compiling (model : ModelId) (i : Inquiry (Option CompileReport))
  | done (r : Except Failure Outcome)

/-- A task: what it is doing, and the task that waits for it, if there is one. -/
structure Task where
  parent : Option TaskId := none
  activity : Activity

end BuildLens
