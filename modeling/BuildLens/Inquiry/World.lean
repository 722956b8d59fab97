import BuildLens.Inquiry.Basic
import BuildLens.Process.Runner
import BuildLens.Process.Script
import BuildLens.System.FileTree

/-!
# A world that answers at once

A file tree and a script answer every request when it comes. The commands asked for are recorded.

Main definitions:

- `FileTree.reply`: the replies of files.
- `World`, `World.answerer`: the world and its answers.
- `Inquiry.runIn`: the outcome of an inquiry.
-/

namespace BuildLens

/-- Files and scripted commands: the rules that answer commands, the last one first, and the
commands asked for, in order. -/
structure World where
  files : FileTree
  script : Script ScriptedAnswer := []
  launches : List Launch := []

/-- The text of a place. -/
def Place.text (p : Place) : String := String.ofList ('/' :: ['/'].intercalate p)

/-- The reply of some files to a request. Any command has the given result. -/
def FileTree.reply (t : FileTree) (result : Except Failure ProcessResult) : (q : Request) → q.Reply
  | .isFile path => t.isFile path.text.toList
  | .mtime path => t.mtime path.text.toList
  | .read path => t.readBytes path.text.toList
  | .realPath path => (t.realPath path.text.toList).text
  | .run .. => result

namespace World

/-- Records a command. -/
def record (w : World) (l : Launch) : World := { w with launches := w.launches ++ [l] }

/-- The result of a command by the script. -/
def scripted (script : Script ScriptedAnswer) (args : List String) : Except Failure ProcessResult :=
  match script.rule? args with
  | none => .error (unscripted args)
  | some rule => rule.answer.outcome args

/-- The result of a command, which is recorded. -/
def run (args : List Argument) (cwd : Option FilePath) (environment : Option (Table String)) :
    StateM World (Except Failure ProcessResult) := do
  match Runner.direct.launch args cwd environment ∅ with
  | .error e => return .error e
  | .ok launch =>
    modify (·.record launch)
    return scripted (← get).script launch.args

/-- The answers to requests. -/
def answerer : Answerer (StateM World)
  | .run args cwd environment => run args cwd environment
  | q => return (← get).files.reply (.error .noCommand) q

end World

/-- The outcome of an inquiry in a world. -/
def Inquiry.runIn {α : Type} (i : Inquiry α) (cache : FragmentCache) :
    StateM World (Except Failure α × FragmentCache) :=
  i.conduct World.answerer cache

end BuildLens
