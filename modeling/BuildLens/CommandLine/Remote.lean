import BuildLens.CommandLine.Program
import BuildLens.Json.Access

/-!
# Machines that are asked

The program need not touch files and processes itself: it can ask whoever has started it. Each
question and each reply is one JSON value.

Main definitions:

- `Machine.remote`: the machine on which another program answers.
- `Ending.toJson`: the end of the program as its last word.
-/

namespace BuildLens

/-- What a path leads to, by its name. -/
def EntryKind.ofName? : String → Option EntryKind
  | "directory" => some .directory
  | "file" => some .file
  | "other" => some .other
  | _ => none

namespace Remote

/-- A question about a path. -/
def about (topic path : String) : Json :=
  .object [("ask", .string topic), ("path", .string path)]

/-- The question that starts a process. -/
def start (l : Launch) : Json := .object [
  ("ask", .string "run"), ("args", .ofTexts l.args), ("cwd", .ofText? (l.cwd.map FilePath.text)),
  ("environment", (l.environment.map Json.ofTextTable).getD .null)]

/-- The cause that a reply names, if it names one. -/
def errno? (reply : Json) : Option Errno := (reply.text? "errno").bind Errno.ofSymbol?

/-- The bytes in a field of a reply. -/
def bytes (reply : Json) : List UInt8 :=
  (reply.items "bytes").map fun b => UInt8.ofNat (b.asInt 0).toNat

/-- What a reply tells, unless it names a cause. -/
def orErrno {α : Type} (read : Json → α) (reply : Json) : Except Errno α :=
  match errno? reply with
  | some errno => .error errno
  | none => .ok (read reply)

/-- What a path leads to, by a reply. -/
def kind (reply : Json) : Except Errno EntryKind :=
  match errno? reply, EntryKind.ofName? (reply.text "kind") with
  | some errno, _ => .error errno
  | none, some kind => .ok kind
  | none, none => .error .noEntry

/-- What became of a process, by a reply. -/
def event (reply : Json) : ProcessEvent :=
  match errno? reply with
  | some errno => .notStarted errno
  | none =>
    .ended ((reply.items "output").map fun piece =>
      ⟨if piece.text "stream" == "stderr" then .stderr else .stdout, bytes piece⟩)
      (reply.int "exit_code")

/-- The kind of system with a name. -/
def platform : String → Platform
  | "windows" => .windows
  | "darwin" => .darwin
  | _ => .linux

end Remote

/-- The machine on which another program answers questions. `greeting` tells the kind of system, the
current directory and the environment. -/
def Machine.remote {m : Type → Type} [Monad m] (ask : Json → m Json) (greeting : Json) :
    Except PathError (Machine m) := do
  let platform := Remote.platform (greeting.text "platform")
  return {
    surroundings := { platform, environment := greeting.textTable "environment" }
    cwd := ← FilePath.ofText platform (greeting.text "cwd")
    kind path := return Remote.kind (← ask (Remote.about "kind" path))
    mtime path := return Remote.orErrno (·.int "mtime") (← ask (Remote.about "mtime" path))
    read path := return Remote.orErrno Remote.bytes (← ask (Remote.about "read" path))
    realPath path := return (← ask (Remote.about "real_path" path)).text "path"
    spawn launch := return Remote.event (← ask (Remote.start launch)) }

/-- What is written at the end of the program. -/
def Ending.output : Ending → Output
  | .help => { stdout := [Program.usage] }
  | .misused => { exitCode := 2, stderr := [Program.usage] }
  | .done output => output
  | .failed failure => Program.failing failure.message
  | .unreadable error => Program.failing error.message

/-- The end of the program as its last word. -/
def Ending.toJson (e : Ending) : Json := .object [
  ("exit_code", .ofNat e.output.exitCode), ("stdout", .ofTexts e.output.stdout),
  ("stderr", .ofTexts e.output.stderr)]

end BuildLens
