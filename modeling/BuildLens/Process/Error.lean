import BuildLens.Process.Result
import BuildLens.System.SystemError

/-!
# Commands that fail

Main definitions:

- `ProcessError`, `ProcessError.message`: a command that could not be started or that failed.
- `ProcessResult.checked`: the result of a command by its exit code.
-/

namespace BuildLens

/-- Why a command gave no good result: it is not known how to run it, the operating system could not
start it, or it ended with an exit code other than zero. -/
inductive ProcessFault where
  | unknownCommand
  | notStarted (error : SystemError)
  | failed
deriving DecidableEq, Repr

/-- A command that could not be started or that failed, with what it left. -/
structure ProcessError where
  fault : ProcessFault
  result : ProcessResult
deriving DecidableEq, Repr

namespace ProcessError

/-- The first argument of the command. -/
def program (e : ProcessError) : String := e.result.args.headD ""

/-- The command as the error names it. -/
def command (e : ProcessError) : String :=
  match e.fault with
  | .unknownCommand => e.program
  | _ => e.result.printable

/-- The text shown for the error. -/
def message (e : ProcessError) : String :=
  match e.fault with
  | .unknownCommand => s!"Failed to execute '{e.program}': not scripted"
  | .notStarted error => s!"Failed to execute '{e.program}': {error.message}"
  | .failed => s!"Executing '{e.result.printable}' failed with exit code {e.result.exitCode}"

end ProcessError

/-- The exit code of a command that was not started. -/
def notStartedCode : Int := -1

/-- The result of a command that has ended: one with an exit code other than zero has failed. -/
def ProcessResult.checked (r : ProcessResult) : Except ProcessError ProcessResult :=
  if r.exitCode = 0 then .ok r else .error ⟨.failed, r⟩

end BuildLens
