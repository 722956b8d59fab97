import BuildLens.Workspace.Task

/-!
# Running operations side by side

An engine is a workspace with the tasks that work on it. One event lets one task go on, with answers
from outside, until it needs another answer; so a list of events is one way in which the tasks take
turns, and any list is possible.

Main definitions:

- `Engine`: a workspace and its tasks.
- `Engine.start`: the beginning of an operation.
- `Engine.resume`: one task goes on.
- `Event`, `Engine.step`, `Engine.run`: runs.
-/

namespace BuildLens

/-- A workspace and the tasks that work on it, by their numbers. -/
structure Engine where
  workspace : Workspace := {}
  tasks : List Task := []

/-- Answers from outside. -/
structure Answers where
  reply : (q : Request) → q.Reply
  hasApi : Bool

namespace Engine

/-! ## Tasks -/

/-- The task with a number. -/
def task? (e : Engine) (id : TaskId) : Option Task := e.tasks[id]?

/-- What a task has ended with, if it has. -/
def result? (e : Engine) (id : TaskId) : Option (Except Failure Outcome) :=
  match (e.task? id).map Task.activity with
  | some (.done r) => some r
  | _ => none

/-- Lets a task do something else. -/
def become (e : Engine) (id : TaskId) (a : Activity) : Engine :=
  { e with tasks := e.tasks.modify id fun t => { t with activity := a } }

/-- Notes the failure of a task with the one that waits for it; only the first one counts. -/
def noteFailure (e : Engine) (parent child : TaskId) (f : Failure) : Engine :=
  { e with tasks := e.tasks.modify parent fun t =>
      match t.activity with
      | .gathering children none after =>
        if child ∈ children then { t with activity := .gathering children (some f) after } else t
      | _ => t }

/-- Ends a task. -/
def finish (e : Engine) (id : TaskId) (r : Except Failure Outcome) : Engine :=
  let e := e.become id (.done r)
  match r, (e.task? id).bind Task.parent with
  | .error f, some parent => e.noteFailure parent id f
  | _, _ => e

/-- Ends a task with the folder of a model. -/
def finishWith (e : Engine) (id : TaskId) (m : ModelId) : Engine :=
  e.finish id (.ok (.folder m (e.workspace.phaseOf m)))

/-- Begins tasks and lets a task wait for them. -/
def gather (e : Engine) (id : TaskId) (children : List Activity) (after : AfterGathering) :
    Engine :=
  let ids := (List.range children.length).map (e.tasks.length + ·)
  let e := { e with tasks := e.tasks ++ children.map (Task.mk (some id)) }
  e.become id (.gathering ids none after)

/-- Changes the workspace. -/
def modifyWorkspace (e : Engine) (f : Workspace → Workspace) : Engine :=
  { e with workspace := f e.workspace }

/-- Goes on with an inquiry about a model up to its next request. -/
def settle {α : Type} (e : Engine) (m : ModelId) (i : Inquiry α) : Inquiry α × Engine :=
  let fragments := ((e.workspace.model? m).map Folder.fragments).getD {}
  let (i, fragments) := i.settle fragments
  (i, e.modifyWorkspace (·.modifyModel m fun f => { f with fragments }))

/-! ## Adding, removing and rebuilding -/

/-- Ends the addition of a folder. The editor is told of the change, unless a provider was
registered for it. -/
def added (e : Engine) (id : TaskId) (m : ModelId) (isNew : Bool) : Engine :=
  (if isNew then e else e.modifyWorkspace (·.notifyChange)).finishWith id m

/-- Makes the provider follow a change of the count of build trees, and goes on. -/
def syncThen (e : Engine) (id : TaskId) (after : AfterRegistration)
    (settled : Engine → Engine) : Engine :=
  match e.workspace.sync with
  | (.asking, w) => { e with workspace := w }.become id (.registering after)
  | (.settled, w) => settled { e with workspace := w }

/-- Takes folders away one after the other, and then adds others side by side. -/
def removeAll (e : Engine) (id : TaskId) (added : List EditorFolder) :
    (roots : List (Except PathError FilePath)) → Engine
  | [] =>
    if added.isEmpty then e.finish id (.ok .nothing) else e.gather id (added.map .adding) .changed
  | .error err :: _ => e.finish id (.error (.path err))
  | .ok root :: rest =>
    match e.workspace.unpublish root with
    | (false, w) => removeAll { e with workspace := w } id added rest
    | (true, w) =>
      { e with workspace := { w with buildCount := w.buildCount - 1 } }.syncThen id
        (.removed rest added) fun e => removeAll (e.modifyWorkspace (·.notifyChange)) id added rest

/-- Ends the look at a new folder: it counts if it is still published. -/
def endAdd (e : Engine) (id : TaskId) (m : ModelId) : Engine :=
  if !e.workspace.isPublished m then
    (e.modifyWorkspace (·.disposeModel m)).finishWith id m
  else if e.workspace.isBuildTree m then
    (e.modifyWorkspace fun w => { w with buildCount := w.buildCount + 1 }).syncThen id (.added m)
      fun e => e.added id m false
  else e.finishWith id m

/-- One for a build tree, and zero for anything else. -/
def weight (w : Workspace) (m : ModelId) : Int := if w.isBuildTree m then 1 else 0

/-- Ends another look at a folder: it replaces the one in force, unless the folder was taken away or
a newer look was begun. -/
def endRebuild (e : Engine) (id : TaskId) (m : ModelId) : Engine :=
  let w := e.workspace
  let key := w.keyOf m
  match w.published.find? key with
  | some current =>
    if w.latest.find? key = some m then
      let delta := weight w m - weight w current
      let w := ({ w with latest := w.latest.erase key }.publish m).disposeModel current
      if delta = 0 then { e with workspace := w }.finish id (.ok .nothing)
      else
        let w := { w with buildCount := w.buildCount + delta }
        { e with workspace := w }.syncThen id .rebuilt fun e => e.finish id (.ok .nothing)
    else (e.modifyWorkspace (·.disposeModel m)).finish id (.ok .nothing)
  | none => (e.modifyWorkspace (·.disposeModel m)).finish id (.ok .nothing)

/-- Ends a look at a folder. -/
def endLook (e : Engine) (id : TaskId) (m : ModelId) : Purpose → Engine
  | .add => e.endAdd id m
  | .rebuild => e.endRebuild id m

/-- Takes in the outcome of a look at a folder. The user is told of a failure that is new. -/
def conclude (e : Engine) (id : TaskId) (purpose : Purpose) (m : ModelId)
    (outcome : Except Failure (Option Build)) : Engine :=
  let message := (e.workspace.model? m).bind (·.message? outcome)
  let e := e.modifyWorkspace (·.modifyModel m (·.conclude outcome))
  match message with
  | none => e.endLook id m purpose
  | some (key, text) =>
    if e.workspace.context.messages.knows key then e.endLook id m purpose
    else
      (e.modifyWorkspace fun w => { w with context := w.context.tell key text }).become id
        (.telling purpose m)

/-- Goes on with the inquiry into a folder. -/
def survey (e : Engine) (id : TaskId) (purpose : Purpose) (m : ModelId)
    (i : Inquiry (Option SourceTree)) : Engine :=
  match e.settle m i with
  | (.answer none, e) => e.conclude id purpose m (.ok none)
  | (.answer (some tree), e) =>
    e.gather id [.asking tree .c, .asking tree .cpp] (.compilers purpose m tree)
  | (.failed f, e) => e.conclude id purpose m (.error f)
  | (i, e) => e.become id (.surveying purpose m i)

/-- Begins the inquiry into a folder. -/
def look (e : Engine) (id : TaskId) (purpose : Purpose) (m : ModelId) : Engine :=
  match e.workspace.model? m with
  | some f =>
    let s := e.workspace.context.surroundings
    e.survey id purpose m (SourceTree.survey s f.root f.settings)
  | none => e

/-- Begins to add a folder. One whose root is known is not looked at again. -/
def beginAdd (e : Engine) (id : TaskId) (folder : EditorFolder) : Engine :=
  match folder.path e.workspace.platform with
  | .error err => e.finish id (.error (.path err))
  | .ok root =>
    match e.workspace.published.find? root.key with
    | some m => e.finishWith id m
    | none =>
      let (m, w) := e.workspace.takeUp folder root
      { e with workspace := w.publish m }.look id .add m

/-- Begins another look at the folder of a model, under the settings now in force. -/
def beginRebuild (e : Engine) (id : TaskId) (old : ModelId) : Engine :=
  match e.workspace.model? old with
  | some f =>
    let (m, w) := e.workspace.takeUp f.source f.root
    { e with workspace := { w with latest := w.latest.insert f.root.key m } }.look id .rebuild m
  | none => e

/-- Looks again at models in force, side by side. -/
def rebuildAll (e : Engine) (id : TaskId) (models : List ModelId) : Engine :=
  if models.isEmpty then e.finish id (.ok .nothing)
  else e.gather id (models.map .rebuilding) .rebuilt

/-- The models in force whose folders other settings concern: all if MozillaBuild moves, and
otherwise those that are being looked at again or whose own settings change. -/
def concerned (w : Workspace) (settings : Settings) : List ModelId :=
  if w.context.movesMozillaBuild settings then w.publishedIds
  else w.publishedIds.filter fun m => (w.model? m).any fun f =>
    (w.latest.find? f.root.key).isSome ||
      !f.settings.agrees (settings.forFolder w.platform f.root)

/-! ## Files -/

/-- Goes on with the inquiry into a compiler. -/
def discover (e : Engine) (id : TaskId) (i : Inquiry Compiler) : Engine :=
  match (i.settle {}).1 with
  | .answer c => e.finish id (.ok (.compiler c))
  | .failed f => e.finish id (.error f)
  | i => e.become id (.discovering i)

/-- Goes on with the inquiry into a file that is to be provided. A failure only loses the file, and
so does a change of the folder that answers for it. -/
def resolve (e : Engine) (id : TaskId) (uri : String) (path : FilePath) (m : ModelId)
    (i : Inquiry (Option SourceConfiguration)) : Engine :=
  match e.settle m i with
  | (.answer c, e) =>
    let item := if e.workspace.innermost? path = some m then c.map (⟨uri, ·⟩) else none
    e.finish id (.ok (.item item))
  | (.failed _, e) => e.finish id (.ok (.item none))
  | (i, e) => e.become id (.resolving uri path m i)

/-- Begins to configure a file that is to be provided. -/
def beginProvide (e : Engine) (id : TaskId) (uri : String) : Engine :=
  let w := e.workspace
  let found := do
    let path ← (FilePath.ofUri w.platform uri).toOption
    let m ← w.answering? path
    return (path, m, ← w.model? m)
  match found with
  | none => e.finish id (.ok (.item none))
  | some (path, m, f) =>
    e.resolve id uri path m (f.configure w.context.surroundings w.context.classifier path)

/-- Goes on with the inquiry into the configuration of a file. -/
def configure (e : Engine) (id : TaskId) (m : ModelId)
    (i : Inquiry (Option SourceConfiguration)) : Engine :=
  match e.settle m i with
  | (.answer c, e) => e.finish id (.ok (.configuration c))
  | (.failed f, e) => e.finish id (.error f)
  | (i, e) => e.become id (.configuring m i)

/-- Goes on with the test compilation of a file. -/
def testCompile (e : Engine) (id : TaskId) (m : ModelId) (i : Inquiry (Option CompileReport)) :
    Engine :=
  match e.settle m i with
  | (.answer r, e) => e.finish id (.ok (.report r))
  | (.failed f, e) => e.finish id (.error f)
  | (i, e) => e.become id (.compiling m i)

/-! ## Beginning and going on -/

/-- Performs an operation as the task with a number, up to its first request. -/
def perform (e : Engine) (id : TaskId) : Operation → Engine
  | .add folder => e.beginAdd id folder
  | .addMany folders =>
    if folders.isEmpty then e.finish id (.ok (.folders []))
    else e.gather id (folders.map .adding) .folders
  | .remove root => e.removeAll id [] [.ok root]
  | .change added removed => e.removeAll id added (removed.map (·.path e.workspace.platform))
  | .rebuild none => e.rebuildAll id e.workspace.publishedIds
  | .rebuild (some roots) =>
    e.rebuildAll id (roots.filterMap fun r => e.workspace.published.find? r.key)
  | .updateSettings settings =>
    let models := concerned e.workspace settings
    let e := e.modifyWorkspace fun w => { w with context := w.context.updateSettings settings }
    e.rebuildAll id models
  | .configure source =>
    match (e.workspace.innermost? source).bind fun m => (e.workspace.model? m).map (m, ·) with
    | none => e.finish id (.ok (.configuration none))
    | some (m, f) =>
      let c := e.workspace.context
      e.configure id m (f.configure c.surroundings c.classifier source)
  | .testCompile source =>
    match (e.workspace.innermost? source).bind fun m => (e.workspace.model? m).map (m, ·) with
    | none => e.finish id (.ok (.report none))
    | some (m, f) =>
      let c := e.workspace.context
      e.testCompile id m (f.testCompile c.surroundings c.classifier source)
  | .provide uris =>
    if uris.isEmpty then e.finish id (.ok (.items []))
    else e.gather id (uris.map .providing) .items
  | .notify notice => (e.modifyWorkspace (·.notify notice)).finish id (.ok .nothing)
  | .notifyThrough n =>
    (e.modifyWorkspace (·.modifyRegistration n Registration.notifyChange)).finish id (.ok .nothing)
  | .disposeOf n =>
    (e.modifyWorkspace (·.modifyRegistration n Registration.dispose)).finish id (.ok .nothing)
  | .dispose => (e.modifyWorkspace Workspace.dispose).finish id (.ok .nothing)

/-- Begins an operation as a new task. -/
def start (e : Engine) (op : Operation) : Engine :=
  { e with tasks := e.tasks ++ [Task.mk none (.done (.ok .nothing))] }.perform e.tasks.length op

/-- Goes on when the editor has answered. -/
def afterRegistration (e : Engine) (id : TaskId) (hasApi : Bool) : AfterRegistration → Engine
  | .added m =>
    let (isNew, w) := e.workspace.registered hasApi
    { e with workspace := w }.added id m isNew
  | .removed rest added =>
    let (_, w) := e.workspace.registered hasApi
    { e with workspace := w.notifyChange }.removeAll id added rest
  | .rebuilt =>
    let (_, w) := e.workspace.registered hasApi
    { e with workspace := w }.finish id (.ok .nothing)

/-- Goes on when all tasks that were waited for have ended well. -/
def afterGathering (e : Engine) (id : TaskId) (outcomes : List Outcome) : AfterGathering → Engine
  | .compilers purpose m tree =>
    match outcomes with
    | [.compiler c, .compiler cpp] => e.conclude id purpose m (.ok (some { tree, c, cpp }))
    | _ => e
  | .folders =>
    e.finish id (.ok (.folders (outcomes.filterMap fun
      | .folder m _ => some (m, e.workspace.phaseOf m)
      | _ => none)))
  | .rebuilt => (e.modifyWorkspace (·.notifyChange)).finish id (.ok .nothing)
  | .changed => e.finish id (.ok .nothing)
  | .items =>
    e.finish id (.ok (.items (outcomes.filterMap fun
      | .item i => i
      | _ => none)))

/-- Goes on when a task that was waited for has failed. -/
def afterFailure (e : Engine) (id : TaskId) (f : Failure) : AfterGathering → Engine
  | .compilers purpose m _ => e.conclude id purpose m (.error f)
  | _ => e.finish id (.error f)

/-- The outcomes of tasks, if all have ended well. -/
def outcomes? (e : Engine) (ids : List TaskId) : Option (List Outcome) :=
  ids.mapM fun id => (e.result? id).bind Except.toOption

/-- Lets a task go on, if it is waiting for nothing but what the answers hold. -/
def resume (e : Engine) (id : TaskId) (answers : Answers) : Engine :=
  match (e.task? id).map Task.activity with
  | some (.adding folder) => e.beginAdd id folder
  | some (.rebuilding old) => e.beginRebuild id old
  | some (.asking tree l) => e.discover id (tree.compiler e.workspace.context.surroundings l)
  | some (.providing uri) => e.beginProvide id uri
  | some (.surveying purpose m (.ask q next)) => e.survey id purpose m (next (answers.reply q))
  | some (.discovering (.ask q next)) => e.discover id (next (answers.reply q))
  | some (.telling purpose m) => e.endLook id m purpose
  | some (.registering after) => e.afterRegistration id answers.hasApi after
  | some (.gathering _ (some f) after) => e.afterFailure id f after
  | some (.gathering children none after) =>
    match e.outcomes? children with
    | some outcomes => e.afterGathering id outcomes after
    | none => e
  | some (.resolving uri path m (.ask q next)) => e.resolve id uri path m (next (answers.reply q))
  | some (.configuring m (.ask q next)) => e.configure id m (next (answers.reply q))
  | some (.compiling m (.ask q next)) => e.testCompile id m (next (answers.reply q))
  | _ => e

end Engine

/-- What happens in a run. -/
inductive Event where
  | call (op : Operation)
  | resume (task : TaskId) (answers : Answers)

namespace Engine

/-- The effect of an event. -/
def step (e : Engine) : Event → Engine
  | .call op => e.start op
  | .resume id answers => e.resume id answers

/-- The effect of a run. -/
def run (e : Engine) (events : List Event) : Engine := events.foldl step e

end Engine

end BuildLens
