import BuildLens.Inquiry.World
import BuildLens.Workspace.Engine

/-!
# Sessions

A session runs the tasks of a workspace in a world of files and scripted commands. Tasks take turns
in the order in which they become ready. A command may have to wait at a gate until the gate is
opened, and so may the question for the editor's interface; nothing else waits. A task that has
ended is noticed, at its turn, by the one that waits for it, which then becomes ready in its turn.

Main definitions:

- `Session`: an engine, its world, and the turns to come.
- `Session.call`, `Session.release`: an operation begins, or a gate is opened, and the tasks run
  until each has ended or waits at a gate.
-/

namespace BuildLens

/-- A turn: a task goes on, or its end is noticed by the one that waits for it. -/
inductive Turn where
  | resume (task : TaskId) (answers : Answers)
  | notice (child : TaskId)

/-- A task that waits at a gate, with the answers that it then gets. -/
structure Waiter where
  gate : String
  task : TaskId
  answers : Answers

/-- An engine, its world, and the turns to come, in order. Tasks wait at gates that are not open, in
the order in which they came; the question for the editor's interface may wait at one. -/
structure Session where
  engine : Engine := {}
  world : World
  hasApi : Bool := true
  apiGate : Option String := none
  opened : List String := []
  ready : List Turn := []
  waiting : List Waiter := []

/-- The turn of the task when the gate is open. -/
def Waiter.turn (w : Waiter) : Turn := .resume w.task w.answers

namespace Turn

/-- Whether the turn lets the task go on. -/
def resumes (id : TaskId) : Turn → Bool
  | .resume task _ => task == id
  | .notice _ => false

/-- Whether the turn notices the end of one of the tasks. -/
def notices (ids : List TaskId) : Turn → Bool
  | .resume .. => false
  | .notice child => ids.contains child

end Turn

/-- What a task needs before it can go on: a reply, the editor's interface, or nothing. One that
waits for others or has ended does not go on by itself. -/
inductive Need where
  | reply (q : Request)
  | api
  | nothing
  | others

/-- What a task needs before it can go on with what it is doing. -/
def Activity.need : Activity → Need
  | .surveying _ _ (.ask q _) | .discovering (.ask q _) | .resolving _ _ _ (.ask q _)
  | .configuring _ (.ask q _) | .compiling _ (.ask q _) => .reply q
  | .registering _ => .api
  | .telling .. => .nothing
  | _ => .others

namespace Session

/-- The answers of a world: those of its files, and the given result for any command. -/
def answersOf (s : Session) (result : Except Failure ProcessResult) : Answers where
  reply := s.world.files.reply result
  hasApi := s.hasApi

/-- The answers for a task that needs none about commands. -/
def plainAnswers (s : Session) : Answers := s.answersOf (.error .noCommand)

/-- Lets a task go on next, or wait if the gate is closed. -/
def pass (s : Session) (gate : Option String) (id : TaskId) (answers : Answers) : Session :=
  match gate.filter fun g => !s.opened.contains g with
  | some g => { s with waiting := s.waiting ++ [⟨g, id, answers⟩] }
  | none => { s with ready := .resume id answers :: s.ready }

/-- The gate at which a command waits. A command that fails to start does not wait. -/
def gateOf (script : Script ScriptedAnswer) (args : List String) : Option String :=
  (script.rule? args).bind fun rule =>
    match rule.answer with
    | .output .. => rule.gate
    | .fault _ => none

/-- Answers a request of a task. A command is recorded before it waits. -/
def serve (s : Session) (id : TaskId) : Request → Session
  | .run args cwd environment =>
    match Runner.direct.launch args cwd environment ∅ with
    | .error e => s.pass none id (s.answersOf (.error e))
    | .ok launch =>
      let s := { s with world := s.world.record launch }
      s.pass (gateOf s.world.script launch.args) id
        (s.answersOf (World.scripted s.world.script launch.args))
  | _ => s.pass none id s.plainAnswers

/-- Sees to what a task needs after it went on. -/
def attend (s : Session) (id : TaskId) : Session :=
  match s.engine.task? id with
  | none => s
  | some t =>
    match t.activity.need with
    | .reply q => s.serve id q
    | .api => s.pass s.apiGate id s.plainAnswers
    | .nothing => s.pass none id s.plainAnswers
    | .others =>
      match t.activity, t.parent with
      | .done _, some _ => { s with ready := s.ready ++ [.notice id] }
      | _, _ => s

/-- Goes on with an engine in which one task went on. The tasks that it began become ready. -/
def take (s : Session) (e : Engine) (id : TaskId) : Session :=
  let begun := (List.range e.tasks.length).drop (max s.engine.tasks.length (id + 1))
  let s := { s with engine := e }
  { s with ready := s.ready ++ begun.map (Turn.resume · s.plainAnswers) }.attend id

/-- Whether the end of a task lets the one that waits for it go on: if the task has failed, or if
all tasks that are waited for have ended and been noticed. -/
def completes (s : Session) (children : List TaskId) (child : TaskId) : Bool :=
  match s.engine.result? child with
  | some (.error _) => true
  | some (.ok _) =>
    (s.engine.outcomes? children).isSome && !s.ready.any (Turn.notices children)
  | none => false

/-- Notices the end of a task. -/
def notice (s : Session) (child : TaskId) : Session :=
  match (s.engine.task? child).bind Task.parent with
  | none => s
  | some parent =>
    match (s.engine.task? parent).map Task.activity with
    | some (.gathering children _ _) =>
      if children.contains child && !s.ready.any (Turn.resumes parent) &&
          s.completes children child then
        { s with ready := s.ready ++ [.resume parent s.plainAnswers] }
      else s
    | _ => s

/-- Takes one turn. -/
def turn (s : Session) : Turn → Session
  | .resume id answers => s.take (s.engine.resume id answers) id
  | .notice child => s.notice child

/-- Takes turns until there are none, at most as many as `fuel`. -/
def settle : (fuel : Nat) → Session → Session
  | 0, s => s
  | fuel + 1, s =>
    match s.ready with
    | [] => s
    | t :: rest => settle fuel ({ s with ready := rest }.turn t)

/-- The number of turns taken at most before the session is looked at again. -/
def turnLimit : Nat := 100000

/-- Begins an operation and answers with its task. -/
def call (s : Session) (op : Operation) : TaskId × Session :=
  let id := s.engine.tasks.length
  (id, (s.take (s.engine.start op) id).settle turnLimit)

/-- Opens a gate: the tasks that wait there become ready in the order in which they came. -/
def release (s : Session) (gate : String) : Session :=
  let (freed, waiting) := s.waiting.partition (·.gate == gate)
  { s with
    opened := gate :: s.opened
    waiting
    ready := s.ready ++ freed.map Waiter.turn }.settle turnLimit

/-- What a task has ended with, if it has. -/
def result? (s : Session) (id : TaskId) : Option (Except Failure Outcome) := s.engine.result? id

end Session

end BuildLens
