import BuildLens.Inquiry.Failure
import BuildLens.Process.Capture
import BuildLens.Shell.Quoting

/-!
# Running commands

Commands are run directly, or on Windows through the login shell of MozillaBuild, which is given the
command as one text and begins its output with a banner.

Main definitions:

- `Launch`: a command as the operating system is asked to start it.
- `ProcessEvent`, `Launch.outcome`: what became of a process.
- `Runner`, `Runner.choose`, `Runner.launch`, `Runner.outcome`: the two ways of running commands.
-/

namespace BuildLens

/-- A command as the operating system is asked to start it. The program comes first; a directory and
an environment are given if they are not those of this process. -/
structure Launch where
  args : List String
  cwd : Option FilePath := none
  environment : Option (Table String) := none
deriving DecidableEq, Repr

/-- What became of a process: it could not be started, or it left output and ended. -/
inductive ProcessEvent where
  | notStarted (errno : Errno)
  | ended (output : List Arrival) (exitCode : Int)
deriving DecidableEq, Repr

/-- The result of a command. -/
def Launch.outcome (l : Launch) : ProcessEvent → Except ProcessError ProcessResult
  | .notStarted errno =>
    .error ⟨.notStarted ⟨errno, l.args.head?⟩, { args := l.args, exitCode := notStartedCode }⟩
  | .ended output exitCode =>
    ProcessResult.checked { args := l.args, exitCode, chunks := capture output }

/-- A way of running commands: as they are, or by the login shell of the MozillaBuild at a path. -/
inductive Runner where
  | direct
  | mozillaBuild (root : FilePath)
deriving DecidableEq, Repr

namespace Runner

/-- The way of running commands on a system, with MozillaBuild if it is installed there. -/
def choose (onWindows : Bool) (mozillaBuild : Option FilePath) : Runner :=
  match onWindows, mozillaBuild with
  | true, some root => .mozillaBuild root
  | _, _ => .direct

/-- The login shell of MozillaBuild. -/
def shell (root : FilePath) : Except PathError FilePath := root.join ["msys", "bin", "bash.exe"]

/-- The command that makes the login shell run the given one. -/
def wrap (root : FilePath) (args : List Argument) : Except PathError (List String) := do
  let command := Shell.quote (args.map fun
    | .text s => s
    | .path p => p.unixText)
  return [(← shell root).text, "--login", "-i", "-c", command]

/-- What the operating system is asked to start for a command. `inherited` is the environment of
this process. -/
def launch (runner : Runner) (args : List Argument) (cwd : Option FilePath)
    (environment : Option (Table String)) (inherited : Table String) : Except Failure Launch :=
  if args.isEmpty then .error .noCommand
  else match runner with
    | .direct => .ok { args := args.map Argument.render, cwd, environment }
    | .mozillaBuild root => do
      let base := Table.ofList [("MOZILLABUILD", root.text)]
      return {
        args := ← (wrap root args).mapError .path
        cwd
        environment := some (base.insertMany (environment.getD inherited).entries) }

/-- What is handed on of a result, good or bad: the banner of the login shell is taken off. -/
def clean (runner : Runner) (r : Except ProcessError ProcessResult) :
    Except ProcessError ProcessResult :=
  match runner, r with
  | .direct, r => r
  | .mozillaBuild _, .ok result => .ok result.stripBanner
  | .mozillaBuild _, .error e => .error { e with result := e.result.stripBanner }

/-- The result of a command that was started as `launch` says. -/
def outcome (runner : Runner) (l : Launch) (event : ProcessEvent) :
    Except ProcessError ProcessResult :=
  runner.clean (l.outcome event)

end Runner

end BuildLens
